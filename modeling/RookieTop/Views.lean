import RookieTop.Navigation
import RookieTop.Panels
import RookieTop.StatCounters

/-! What holds of every overview that can be collected, and of every one that a run
has on display. -/
namespace RookieTop.Views

open CLib Trace Sys Tables ProcDir Host Cpu Disk Memory Network Process ProcessCpu ProcessList
  CollectOverview Explorer App RunInteractive Passes

structure Named (size : Nat) (name : Bytes) : Prop where
  nonempty : name ≠ []
  fits : name.length < size
  string : 0 ∉ name

/-- A percentage of what has been used, and what is left. -/
structure Used (percent : ℚ) (total used left : UInt64) : Prop where
  nonzero : total ≠ 0
  sum : used.toNat + left.toNat = total.toNat
  percent : percent = used.toNat * 100 / total.toNat

structure CpuListed (info : ProcessCpuInfo) : Prop where
  pid : 0 < info.pid
  name : Named processCpuNameMax info.name
  positive : 0 < info.cpuPercent
  /-- No share is of more ticks than a counter can hold, nor of less than one. -/
  bound : info.cpuPercent ≤ 100 * 2 ^ 64

structure MemoryListed (process : ProcessInfo) : Prop where
  pid : 0 < process.pid
  name : Named processNameMax process.name

structure Panel {Entry Score : Type} [LE Score] (score : Entry → Score) (Listed : Entry → Prop)
    (ok : Bool) (entries : List Entry) (total : Nat) : Prop where
  ordered : entries.Pairwise fun a b => score b ≤ score a
  listed : ∀ entry ∈ entries, Listed entry
  room : entries.length ≤ topProcessCount
  counted : entries.length ≤ total
  unread : ok = false → entries = [] ∧ total = 0

structure WellFormed (view : Overview) : Prop where
  cpu : 0 ≤ view.cpuPercent
  memory : Used view.memoryPercent view.memory.totalKib view.memoryUsedKib view.memory.availableKib
  swap : view.swapUsedKib.toNat + view.memory.swapFreeKib.toNat = view.memory.swapTotalKib.toNat
  disk : Used view.diskPercent view.disk.totalBytes view.diskUsedBytes view.disk.availableBytes
  rates : 0 ≤ view.rxPerSec ∧ 0 ≤ view.txPerSec
  offline : view.networkOk = false → view.rxPerSec = 0 ∧ view.txPerSec = 0
  host : view.hostOk = true → Known view.host
  hostless : view.hostOk = false → view.host = HostInfo.zero
  cpuTop : Panel ProcessCpuInfo.cpuPercent CpuListed view.cpuProcessOk view.cpuTop
    view.cpuProcessTotal
  memoryTop : Panel ProcessInfo.rssKib MemoryListed view.memoryProcessOk view.memoryTop
    view.memoryProcessTotal

theorem Used.bounds {percent : ℚ} {total used left : UInt64} (h : Used percent total used left) :
    0 ≤ percent ∧ percent ≤ 100 := by
  have hpos : (0 : ℚ) < total.toNat := by
    have hne : total.toNat ≠ 0 := fun h0 => h.nonzero (UInt64.toNat_inj.mp h0)
    exact_mod_cast Nat.pos_of_ne_zero hne
  have hle : (used.toNat : ℚ) ≤ total.toNat := by
    have hsum := h.sum
    exact_mod_cast (by omega : used.toNat ≤ total.toNat)
  rw [h.percent]
  constructor
  · positivity
  · rw [div_le_iff₀ hpos]
    linarith

theorem cpuUsage_nonneg {prev curr : CpuSample} {percent : ℚ}
    (h : cpuUsage prev curr = some percent) : 0 ≤ percent := by
  rw [cpuUsage_eq h]
  positivity

theorem memoryUsage_used {sample : MemorySample} {usage : MemoryUsage}
    (h : memoryUsage sample = some usage) :
    Used usage.percent sample.totalKib usage.usedKib sample.availableKib ∧
      usage.swapUsedKib.toNat + sample.swapFreeKib.toNat = sample.swapTotalKib.toNat := by
  unfold memoryUsage at h
  split_ifs at h with hbad
  simp only [not_or, UInt64.not_lt] at hbad
  obtain ⟨htotal, havailable, hfree⟩ := hbad
  cases Option.some.inj h
  have hle := UInt64.le_iff_toNat_le.mp havailable
  have hswap := UInt64.le_iff_toNat_le.mp hfree
  refine ⟨⟨htotal, ?_, rfl⟩, ?_⟩
  · rw [UInt64.toNat_sub_of_le _ _ havailable]
    omega
  · dsimp only
    rw [UInt64.toNat_sub_of_le _ _ hfree]
    omega

theorem diskUsage_used {sample : DiskSample} {used : ℚ × UInt64}
    (h : diskUsage sample = some used) :
    Used used.1 sample.totalBytes used.2 sample.availableBytes := by
  unfold diskUsage at h
  split_ifs at h with hbad
  simp only [not_or, UInt64.not_lt] at hbad
  cases Option.some.inj h
  have hle := UInt64.le_iff_toNat_le.mp hbad.2
  refine ⟨hbad.1, ?_, rfl⟩
  dsimp only
  rw [UInt64.toNat_sub_of_le _ _ hbad.2]
  omega

theorem networkRate_nonneg {prev curr : NetworkSample} {seconds : ℚ} {rates : ℚ × ℚ}
    (h : networkRate prev curr seconds = some rates) : 0 ≤ rates.1 ∧ 0 ≤ rates.2 := by
  unfold networkRate at h
  split_ifs at h with hbad
  simp only [not_or, not_le] at hbad
  cases Option.some.inj h
  exact ⟨div_nonneg (Nat.cast_nonneg _) hbad.1.le, div_nonneg (Nat.cast_nonneg _) hbad.1.le⟩

theorem notMem_cstr (s : Bytes) : 0 ∉ cstr s := by
  intro h
  simpa using List.mem_takeWhile_imp h

theorem strrchr_lt {s : Bytes} {c : UInt8} {i : Nat} (h : strrchr s c = some i) : i < s.length := by
  by_cases hc : c ∈ s
  · obtain ⟨w, t, rfl, ht⟩ := exists_last hc
    rw [strrchr_append_cons ht] at h
    cases Option.some.inj h
    simp
  · rw [strrchr_eq_none hc] at h
    cases h

theorem processCpuParseStat_named {line : Bytes} {stat : ProcessCpuStat} (hline : 0 ∉ line)
    (h : processCpuParseStat line = some stat) :
    0 < stat.pid ∧ Named processCpuNameMax stat.name := by
  obtain ⟨opening, closing, hhead, hstat⟩ := StatCounters.processCpuParseStat_eq_some_iff.mp h
  obtain ⟨utime, stime, starttime, -, -, rfl⟩ := StatCounters.statOf_eq_some_iff.mp hstat
  have hclose := strrchr_lt hhead.closes
  have hnamed := hhead.named
  have hshort := hhead.short
  have hlength : ((line.drop (opening + 1)).take (closing - opening - 1)).length =
      closing - opening - 1 := by
    rw [List.length_take, List.length_drop]
    omega
  refine ⟨hhead.pid.2.2.1, ?_, ?_, fun hmem => ?_⟩
  · apply List.ne_nil_of_length_pos
    dsimp only
    omega
  · dsimp only
    omega
  · exact hline (List.mem_of_mem_drop (List.mem_of_mem_take hmem))

theorem parseName_named {line name : Bytes} {cap : Nat} (hline : 0 ∉ line)
    (h : Process.parseName line cap = .value name) : Named cap name := by
  unfold Process.parseName at h
  split_ifs at h with hkey
  dsimp only at h
  split_ifs at h with hbad
  simp only [not_or, not_le] at hbad
  cases h
  refine ⟨List.ne_nil_of_length_pos (Nat.pos_of_ne_zero hbad.1), hbad.2, fun hmem => hline ?_⟩
  have htake := List.mem_of_mem_take ((List.rdropWhile_prefix _ _).subset hmem)
  exact List.mem_of_mem_drop ((List.dropWhile_suffix _).subset htake)

theorem processParseStatus_named {stream : Stream} {pid : Int} {process : ProcessInfo}
    (h : processParseStatus stream pid = some process) : MemoryListed process := by
  have hpid := processParseStatus_pid h
  unfold processParseStatus at h
  split_ifs at h with hpos
  split at h
  · cases h
  · rename_i found hfold
    split_ifs at h with hbad
    simp only [not_or, Bool.not_eq_true, Bool.not_eq_false'] at hbad
    cases Option.some.inj h
    have hstep : ∀ line ∈ (fgetsAll statusLineMax stream).map cstr,
        ∀ {s s' : ProcessInfo × Bool}, Process.statusStep s line = some s' →
          (s.2 = true → Named processNameMax s.1.name) →
          (s'.2 = true → Named processNameMax s'.1.name) := by
      intro line hline s s' hs hnamed
      obtain ⟨raw, -, rfl⟩ := List.mem_map.mp hline
      unfold Process.statusStep at hs
      split at hs
      · cases hs
      · rename_i name hname
        cases Option.some.inj hs
        exact fun _ => parseName_named (notMem_cstr raw) hname
      · split at hs
        · cases hs
        · cases Option.some.inj hs
          exact hnamed
        · cases Option.some.inj hs
          exact hnamed
    have hname := foldlM_keeps_mem hstep hfold (fun hfalse => by cases hfalse)
    exact ⟨by omega, hname hbad.2⟩

section Panels

variable {env : Env} {n : Nat}

theorem top_panel {Entry Score : Type} [LE Score] [DecidableLE Score] [Std.IsLinearOrder Score]
    {score : Entry → Score} {Listed : Entry → Prop} {entries : List Entry} {total : Nat}
    (hlisted : ∀ entry ∈ entries, Listed entry) (htotal : entries.length ≤ total) :
    Panel score Listed true (entries.foldl (insertTop score topProcessCount) []) total := by
  rw [foldl_insertTop]
  have hperm := bestFirst_perm score entries
  constructor
  · exact (bestFirst_spec entries).ordered.sublist (List.take_sublist _ _)
  · exact fun entry hentry => hlisted entry (hperm.mem_iff.mp (List.mem_of_mem_take hentry))
  · exact List.length_take_le _ _
  · rw [List.length_take, hperm.length_eq]
    omega
  · intro h
    cases h

theorem empty_panel {Entry Score : Type} [LE Score] {score : Entry → Score}
    {Listed : Entry → Prop} : Panel score Listed false [] 0 :=
  ⟨List.Pairwise.nil, by simp, Nat.zero_le _, le_refl 0, fun _ => ⟨rfl, rfl⟩⟩

theorem cpuShare_le (previous : List ProcessCpuCounter) (ticks : UInt64) (pid : Int)
    (current : ProcessCpuStat) (hticks : ticks ≠ 0) :
    cpuShare previous ticks pid current ≤ 100 * 2 ^ 64 := by
  have hpos : (1 : ℚ) ≤ ticks.toNat := by
    have hne : ticks.toNat ≠ 0 := fun h0 => hticks (UInt64.toNat_inj.mp h0)
    exact_mod_cast Nat.one_le_iff_ne_zero.mpr hne
  unfold cpuShare
  split
  · norm_num
  · rename_i old _
    split_ifs
    · have hdelta : ((current.ticks - old.ticks).toNat : ℚ) ≤ 2 ^ 64 := by
        exact_mod_cast (current.ticks - old.ticks).toNat_lt.le
      rw [div_le_iff₀ (by linarith)]
      nlinarith
    · norm_num

theorem readInfo_listed {previous : List ProcessCpuCounter} {ticks : UInt64} {pid : Int}
    {info : ProcessCpuInfo} (hticks : ticks ≠ 0)
    (h : (readInfo env previous ticks pid).value n = some info) (hpositive : 0 < info.cpuPercent) :
    CpuListed info := by
  unfold readInfo at h
  simp only [Calls.value_bind, Calls.value_pure] at h
  obtain ⟨stat, hstat, rfl⟩ := Option.map_eq_some_iff.mp h
  rw [readProcessStat_value] at hstat
  split_ifs at hstat
  obtain ⟨line, -, hparse⟩ := Option.bind_eq_some_iff.mp hstat
  obtain ⟨hpid, hnamed⟩ := processCpuParseStat_named (notMem_cstr _) hparse
  exact ⟨hpid, hnamed, hpositive, cpuShare_le _ _ _ _ hticks⟩

theorem processCpuTopSince_read {previous : List ProcessCpuCounter} {ticks : UInt64}
    {top : List ProcessCpuInfo × Nat}
    (h : (processCpuTopSince env previous ticks topProcessCount).value n = some top) :
    ticks ≠ 0 ∧ ∃ infos : List ProcessCpuInfo,
      top = (infos.foldl (insertTop ProcessCpuInfo.cpuPercent topProcessCount) [], top.2) ∧
        infos.length ≤ top.2 ∧ ∀ info ∈ infos, 0 < info.cpuPercent ∧
          ∃ pid time, (readInfo env previous ticks pid).value time = some info := by
  unfold processCpuTopSince processCpuAllSince at h
  split_ifs at h with hargs hzero
  · cases h
  · cases h
  · simp only [Calls.value_bind, Calls.value_pure, Option.map_map] at h
    obtain ⟨infos, hscan, rfl⟩ := Option.map_eq_some_iff.mp h
    obtain ⟨dir, visits, -, -, rfl⟩ := scanProc_some hscan
    have hperm := env.qsort.perm compareInfoPid
      (records (readInfo env previous ticks) visits)
    refine ⟨hzero, _, rfl, List.length_filter_le _ _, fun info hinfo => ?_⟩
    obtain ⟨hmem, hpositive⟩ := List.mem_filter.mp hinfo
    obtain ⟨visit, -, hread⟩ := mem_records.mp (hperm.mem_iff.mp hmem)
    exact ⟨by simpa using hpositive, _, _, hread⟩

theorem processCpuTopSince_panel {previous : List ProcessCpuCounter} {ticks : UInt64}
    {top : List ProcessCpuInfo × Nat}
    (h : (processCpuTopSince env previous ticks topProcessCount).value n = some top) :
    Panel ProcessCpuInfo.cpuPercent CpuListed true top.1 top.2 := by
  obtain ⟨hticks, infos, htop, htotal, hread⟩ := processCpuTopSince_read h
  rw [htop]
  refine top_panel (fun info hinfo => ?_) htotal
  obtain ⟨hpositive, pid, time, hinfo⟩ := hread info hinfo
  exact readInfo_listed hticks hinfo hpositive

theorem scanned_read (names : List Bytes) (n : Nat) :
    ∀ process ∈ (scanned env names).value n,
      ∃ pid time, (readProcess env pid).value time = some process := by
  induction names generalizing n with
  | nil => exact fun _ h => by cases h
  | cons name names ih =>
    unfold scanned
    cases parsePid name with
    | none => exact ih n
    | some pid =>
      simp only [Calls.value_bind]
      cases hread : (readProcess env pid).value n with
      | none => exact ih _
      | some process =>
        intro other hmem
        rcases List.mem_cons.mp hmem with rfl | hmem
        · exact ⟨pid, n, hread⟩
        · exact ih _ other hmem

theorem readProcess_some {pid : Int} {process : ProcessInfo}
    (h : (readProcess env pid).value n = some process) :
    ∃ opened read, processParseStatus (env.content opened read (.pidStatus pid)) pid =
      some process := by
  unfold readProcess at h
  simp only [Calls.value_bind, readFile_value] at h
  split_ifs at h with hopen
  · simp only [Calls.value_pure] at h
    split_ifs at h
    exact ⟨_, _, h⟩
  · cases h

theorem processTopMemory_read {top : List ProcessInfo × Nat}
    (h : (processTopMemory env topProcessCount).value n = some top) :
    ∃ processes : List ProcessInfo,
      top = (processes.foldl (insertTop ProcessInfo.rssKib topProcessCount) [], top.2) ∧
        processes.length ≤ top.2 ∧ ∀ process ∈ processes,
          ∃ pid time, (readProcess env pid).value time = some process := by
  have hcap : topProcessCount ≠ 0 := by decide
  unfold processTopMemory at h
  rw [if_neg hcap] at h
  simp only [Calls.value_bind, Calls.value_call, Calls.after_call] at h
  cases hdir : env.directory n with
  | none => simp [hdir] at h
  | some dir =>
    simp only [hdir, Calls.value_bind, Calls.value_pure, topLoop_value] at h
    split_ifs at h
    cases Option.some.inj h
    exact ⟨_, rfl, by omega, scanned_read dir.names _⟩

theorem processTopMemory_panel {top : List ProcessInfo × Nat}
    (h : (processTopMemory env topProcessCount).value n = some top) :
    Panel ProcessInfo.rssKib MemoryListed true top.1 top.2 := by
  obtain ⟨processes, htop, htotal, hread⟩ := processTopMemory_read h
  rw [htop]
  refine top_panel (fun process hprocess => ?_) htotal
  obtain ⟨pid, time, hprocess⟩ := hread process hprocess
  obtain ⟨opened, read, hparse⟩ := readProcess_some hprocess
  exact processParseStatus_named hparse

end Panels

theorem overviewOf_wellFormed {host : Option HostInfo} {memory : MemorySample}
    {usage : MemoryUsage} {disk : DiskSample} {diskUsed : ℚ × UInt64} {cpuPercent : ℚ}
    {rates : Option (ℚ × ℚ)} {cpuTop : Option (List ProcessCpuInfo × Nat)}
    {memoryTop : Option (List ProcessInfo × Nat)} (hhost : ∀ info, host = some info → Known info)
    (hcpu : 0 ≤ cpuPercent)
    (husage : memoryUsage memory = some usage) (hdisk : diskUsage disk = some diskUsed)
    (hrates : ∀ r, rates = some r → 0 ≤ r.1 ∧ 0 ≤ r.2)
    (hcpuTop : ∀ top, cpuTop = some top →
      Panel ProcessCpuInfo.cpuPercent CpuListed true top.1 top.2)
    (hmemoryTop : ∀ top, memoryTop = some top →
      Panel ProcessInfo.rssKib MemoryListed true top.1 top.2) :
    WellFormed (overviewOf host memory usage disk diskUsed cpuPercent rates cpuTop memoryTop) := by
  obtain ⟨hmemory, hswap⟩ := memoryUsage_used husage
  refine ⟨hcpu, hmemory, hswap, diskUsage_used hdisk, ?_, ?_, ?_, ?_, ?_, ?_⟩
  · cases rates with
    | none => exact ⟨le_refl _, le_refl _⟩
    | some r => exact hrates r rfl
  · cases rates with
    | none => exact fun _ => ⟨rfl, rfl⟩
    | some r => exact fun h => by cases h
  · cases host with
    | none => exact fun h => by cases h
    | some info => exact fun _ => hhost info rfl
  · cases host with
    | none => exact fun _ => rfl
    | some info => exact fun h => by cases h
  · cases cpuTop with
    | none => exact empty_panel
    | some top => exact hcpuTop top rfl
  · cases memoryTop with
    | none => exact empty_panel
    | some top => exact hmemoryTop top rfl

variable {env : Env} {n : Nat}

theorem networkSince_nonneg {first : Option (NetworkSample × Timespec)} {rates : ℚ × ℚ}
    (h : (networkSince env first).value n = some rates) : 0 ≤ rates.1 ∧ 0 ≤ rates.2 := by
  unfold networkSince at h
  cases first with
  | none => cases h
  | some first =>
    simp only [Calls.value_bind] at h
    cases hnext : (networkAt env).value n with
    | none => simp [hnext] at h
    | some next =>
      simp only [hnext, Calls.value_pure] at h
      exact networkRate_nonneg h

/-- An overview is made of what its readers came to. -/
def Collected (env : Env) (view : Overview) : Prop :=
  ∃ host memory usage disk diskUsed cpuPrev cpuCurr cpuPercent rates cpuTop memoryTop,
    (∀ info, host = some info → ∃ time, (hostRead env).value time = some info) ∧
    cpuUsage cpuPrev cpuCurr = some cpuPercent ∧ memoryUsage memory = some usage ∧
    diskUsage disk = some diskUsed ∧
    (∀ r, rates = some r → ∃ first time, (networkSince env first).value time = some r) ∧
    (∀ top, cpuTop = some top → ∃ previous ticks time,
      (processCpuTopSince env previous ticks topProcessCount).value time = some top) ∧
    (∀ top, memoryTop = some top → ∃ time,
      (processTopMemory env topProcessCount).value time = some top) ∧
    view = overviewOf host memory usage disk diskUsed cpuPercent rates cpuTop memoryTop

theorem finishOverview_collected {host : Option HostInfo} {memory : MemorySample}
    {disk : DiskSample} {cpuPrev cpuCurr : CpuSample} {first : Option (NetworkSample × Timespec)}
    {previous : Option (List ProcessCpuCounter)} {view : Overview}
    (hhost : ∀ info, host = some info → ∃ time, (hostRead env).value time = some info)
    (h : (finishOverview env host memory disk cpuPrev cpuCurr first previous).value n = some view) :
    Collected env view := by
  unfold finishOverview at h
  simp only [Calls.value_bind] at h
  cases hcpu : cpuUsage cpuPrev cpuCurr with
  | none => simp [hcpu] at h
  | some cpuPercent =>
  cases hticks : cpuTotalDelta cpuPrev cpuCurr with
  | none => simp [hcpu, hticks] at h
  | some ticks =>
  cases husage : memoryUsage memory with
  | none => simp [hcpu, hticks, husage] at h
  | some usage =>
  cases hdisk : diskUsage disk with
  | none => simp [hcpu, hticks, husage, hdisk] at h
  | some diskUsed =>
  simp only [hcpu, hticks, husage, hdisk, Calls.value_bind, Calls.value_pure,
    Option.some.injEq] at h
  refine ⟨host, memory, usage, disk, diskUsed, cpuPrev, cpuCurr, cpuPercent, _, _, _, hhost, hcpu,
    husage, hdisk, fun r hr => ⟨first, _, hr⟩, fun top htop => ?_, fun top htop => ⟨_, htop⟩, h.symm⟩
  unfold cpuTopSince at htop
  cases previous with
  | none => cases htop
  | some previous => exact ⟨previous, ticks, _, htop⟩

theorem collectOverview_collected {view : Overview}
    (h : (collectOverview env).value n = some view) : Collected env view := by
  unfold collectOverview at h
  simp only [Calls.value_bind] at h
  cases hmemory : (memoryRead env).value ((hostRead env).after n) with
  | none => simp [hmemory] at h
  | some memory =>
  simp only [hmemory, Calls.value_bind] at h
  cases hdisk : (diskReadRoot env).value ((memoryRead env).after ((hostRead env).after n)) with
  | none => simp [hdisk] at h
  | some disk =>
  simp only [hdisk, Calls.value_bind] at h
  cases hprev : (cpuRead env).value ((diskReadRoot env).after ((memoryRead env).after ((hostRead env).after n))) with
  | none => simp [hprev] at h
  | some cpuPrev =>
  simp only [hprev, Calls.value_bind, Calls.value_ite] at h
  split_ifs at h
  · split at h
    · cases h
    · exact finishOverview_collected (fun _ hread => ⟨n, hread⟩) h
  · cases h

theorem collectOverview_wellFormed {view : Overview}
    (h : (collectOverview env).value n = some view) : WellFormed view := by
  obtain ⟨host, memory, usage, disk, diskUsed, cpuPrev, cpuCurr, cpuPercent, rates, cpuTop,
    memoryTop, hhost, hcpu, husage, hdisk, hrates, hcpuTop, hmemoryTop, rfl⟩ :=
    collectOverview_collected h
  refine overviewOf_wellFormed (fun info hinfo => ?_) (cpuUsage_nonneg hcpu) husage hdisk
    (fun r hr => ?_) (fun top htop => ?_) fun top htop => ?_
  · obtain ⟨time, hread⟩ := hhost info hinfo
    exact hostRead_known hread
  · obtain ⟨first, time, hsince⟩ := hrates r hr
    exact networkSince_nonneg hsince
  · obtain ⟨previous, ticks, time, hread⟩ := hcpuTop top htop
    exact processCpuTopSince_panel hread
  · obtain ⟨time, hread⟩ := hmemoryTop top htop
    exact processTopMemory_panel hread

/-- The overview that a drawing shows, and whether it is taken for one. -/
def viewOf : Drawing → Option (Overview × Bool)
  | .overview view => some (view, true)
  | .learnMenu state | .lesson state => some (state.view, state.viewOk)
  | _ => none

structure Keeps (state state' : AppState) : Prop where
  view : state'.view = state.view
  viewOk : state'.viewOk = state.viewOk
  history : state'.history = state.history

section Pass

variable {state : AppState} {consumed : Nat}

theorem Keeps.refl (state : AppState) : Keeps state state := ⟨rfl, rfl, rfl⟩

theorem overviewKey_keeps (state : AppState) (key : Int) : Keeps state (overviewKey state key) := by
  unfold overviewKey
  split_ifs <;> exact ⟨rfl, rfl, rfl⟩

theorem searchKey_keeps (state : AppState) (key : Int) : Keeps state (searchKey state key) := by
  unfold searchKey
  split_ifs
  · exact ⟨rfl, rfl, rfl⟩
  · exact ⟨rfl, rfl, rfl⟩
  · rw [SearchTyping.editProcessSearch_eq]
    exact ⟨rfl, rfl, rfl⟩

theorem learnMenuKey_keeps (state : AppState) (key : Int) :
    Keeps state (learnMenuKey state key) := by
  unfold learnMenuKey
  split_ifs <;> exact ⟨rfl, rfl, rfl⟩

theorem learnTopicKey_keeps (state : AppState) (key : Int) :
    Keeps state (learnTopicKey state key) := by
  unfold learnTopicKey
  split_ifs <;> exact ⟨rfl, rfl, rfl⟩

theorem openAt_keeps (state : AppState) (rows : List ProcessRow) (screen : Screen) (n : Nat) :
    Keeps state ((openAt env state rows screen).value n) := by
  unfold openAt
  split
  · exact .refl state
  · rename_i row _
    obtain ⟨detail, notice, opened, heq, -⟩ := openSelectedDetail_eq env state row screen n
    rw [heq]
    exact ⟨rfl, rfl, rfl⟩

theorem processesKey_keeps (state : AppState) (rows : List ProcessRow) (key : Int) (n : Nat) :
    Keeps state ((processesKey env state rows key).value n) := by
  have hpress := processesKey_press env state rows key
  generalize processesKey env state rows key = act at hpress ⊢
  cases hpress with
  | arrow i _ =>
    obtain ⟨selected, pid, starttime, heq⟩ := selectAt_eq state rows i
    rw [Calls.value_pure, heq]
    exact ⟨rfl, rfl, rfl⟩
  | opens screen _ => exact openAt_keeps state rows screen n
  | search _ => exact ⟨rfl, rfl, rfl⟩
  | sort _ => exact ⟨rfl, rfl, rfl⟩
  | menu => exact ⟨rfl, rfl, rfl⟩
  | back => exact ⟨rfl, rfl, rfl⟩
  | none => exact .refl state

theorem openConfirmFromDetail_keeps (state : AppState) (force : Bool) (n : Nat) :
    Keeps state ((openConfirmFromDetail env state force).value n) := by
  obtain ⟨detail, notice, opened, heq, -⟩ := openConfirmFromDetail_eq env state force n
  rw [heq]
  exact ⟨rfl, rfl, rfl⟩

theorem detailKey_keeps (state : AppState) (key : Int) (n : Nat) :
    Keeps state ((detailKey env state key).value n).1 := by
  unfold detailKey
  split_ifs
  · exact ⟨rfl, rfl, rfl⟩
  · exact openConfirmFromDetail_keeps state false n
  · exact openConfirmFromDetail_keeps state true n
  · exact ⟨rfl, rfl, rfl⟩
  · exact .refl state

theorem processLearnKey_keeps (state : AppState) (key : Int) (n : Nat) :
    Keeps state ((processLearnKey env state key).value n).1 := by
  unfold processLearnKey
  split_ifs
  · exact openConfirmFromDetail_keeps state false n
  · exact openConfirmFromDetail_keeps state true n
  · exact ⟨rfl, rfl, rfl⟩
  · exact .refl state

theorem confirmKey_keeps (force : Bool) (state : AppState) (key : Int) (n : Nat) :
    Keeps state ((confirmKey env force state key).value n).1 := by
  unfold confirmKey
  split_ifs
  · obtain ⟨notice, heq⟩ := handleSignalConfirm_state env state force n
    rw [heq]
    exact ⟨rfl, rfl, rfl⟩
  · exact ⟨rfl, rfl, rfl⟩
  · exact .refl state

/-- A pass that takes no overview: it keeps the last one, and that is what it draws. -/
structure Plain (state : AppState) (pass : Pass) : Prop where
  keeps : Keeps state pass.state
  drawn : ∀ frame shown, pass.frame = some frame → viewOf frame.drawing = some shown →
    shown = (state.view, state.viewOk)

theorem plainPass_plain {drawing : Drawing} {act : AppState → Int → AppState}
    (hdrawn : ∀ shown, viewOf drawing = some shown → shown = (state.view, state.viewOk))
    (hact : ∀ key, Keeps state (act state key)) (term : TerminalSize) :
    Plain state ((plainPass env drawing act term state consumed).value n) := by
  refine ⟨hact _, fun frame shown hframe hshown => ?_⟩
  cases Option.some.inj hframe
  exact hdrawn shown hshown

theorem detailPass_plain {draw : ProcessDetail → Drawing} (hdraw : ∀ detail, viewOf (draw detail) = none)
    {act : AppState → Int → Calls (AppState × List KillCall)}
    (hact : ∀ state key n, Keeps state ((act state key).value n).1) (term : TerminalSize) :
    Plain state ((detailPass env draw act term state consumed).value n) := by
  unfold detailPass
  simp only [Calls.value_bind]
  cases hrefresh : (refreshSelectedDetail env state).value n with
  | none => exact ⟨⟨rfl, rfl, rfl⟩, fun frame shown hframe => by cases hframe⟩
  | some refreshed =>
    obtain ⟨detail, -, -, -, rfl⟩ := refreshSelectedDetail_some env hrefresh
    refine ⟨?_, fun frame shown hframe hshown => ?_⟩
    · obtain ⟨hview, hok, hhistory⟩ := hact { state with selectedDetail := detail } _ _
      exact ⟨hview, hok, hhistory⟩
    · cases Option.some.inj hframe
      cases (hdraw detail).symm.trans hshown

theorem processesPass_plain (term : TerminalSize) :
    Plain state ((processesPass env term state consumed).value n) := by
  unfold processesPass showProcesses
  simp only [Calls.value_bind, Calls.value_pure]
  generalize (sampleProcessRows env).value n = sampled
  obtain ⟨notice, hnotice⟩ := noticeSampled_eq state sampled
  obtain ⟨selected, pid, starttime, haligned⟩ := alignSelection_eq (noticeSampled state sampled)
    (shownRows env (noticeSampled state sampled) (sampled.getD []))
  rw [haligned, hnotice]
  refine ⟨?_, fun frame shown hframe hshown => ?_⟩
  · obtain ⟨hview, hok, hhistory⟩ := @processesKey_keeps env
      { state with
        notice := notice, selected := selected, selectedPid := pid,
        selectedStarttime := starttime } _ _ _
    exact ⟨hview, hok, hhistory⟩
  · cases Option.some.inj hframe
    cases hshown

theorem loopPass_plain (hscreen : state.screen ≠ .overview) :
    Plain state ((loopPass env state consumed).value n) := by
  unfold loopPass screenPass
  rw [Calls.value_bind, Calls.value_call, Calls.after_call]
  cases h : state.screen with
  | overview => exact absurd h hscreen
  | processes => exact processesPass_plain _
  | processSearch => exact plainPass_plain (fun _ h => by cases h) (searchKey_keeps state) _
  | learnMenu =>
    refine plainPass_plain (fun shown hshown => ?_) (learnMenuKey_keeps state) _
    exact (Option.some.inj hshown).symm
  | learnTopic =>
    refine plainPass_plain (fun shown hshown => ?_) (learnTopicKey_keeps state) _
    exact (Option.some.inj hshown).symm
  | detail => exact detailPass_plain (fun _ => rfl) detailKey_keeps _
  | processLearn => exact detailPass_plain (fun _ => rfl) processLearnKey_keeps _
  | confirmTerm => exact detailPass_plain (fun _ => rfl) (confirmKey_keeps false) _
  | confirmKill => exact detailPass_plain (fun _ => rfl) (confirmKey_keeps true) _

structure Takes (state : AppState) (view : Overview) (pass : Pass) : Prop where
  latest : pass.state.view = view
  viewOk : pass.state.viewOk = true
  history : pass.state.history = historyPush state.history view
  drawn : ∀ frame shown, pass.frame = some frame → viewOf frame.drawing = some shown →
    shown = (view, true)

theorem loopPass_overview (hscreen : state.screen = .overview) :
    ((collectOverview env).value (n + 1) = none ∧
        (loopPass env state consumed).value n =
          ⟨{ state with viewOk := false }, consumed, none, TerminalInput.inputNone, [], true⟩) ∨
      ∃ view, (collectOverview env).value (n + 1) = some view ∧
        Takes state view ((loopPass env state consumed).value n) := by
  unfold loopPass screenPass overviewPass
  simp only [Calls.value_bind, Calls.value_call, Calls.after_call, hscreen]
  cases hrefresh : (refreshOverview env state).value (n + 1) with
  | none =>
    refine Or.inl ⟨?_, rfl⟩
    unfold refreshOverview at hrefresh
    simp only [Calls.value_bind] at hrefresh
    cases hview : (collectOverview env).value (n + 1) with
    | none => rfl
    | some view => simp [hview] at hrefresh
  | some refreshed =>
    obtain ⟨view, hview, rfl⟩ := refreshOverview_some env hrefresh
    refine Or.inr ⟨view, hview, ?_⟩
    obtain ⟨hkept, hok, hhistory⟩ := overviewKey_keeps { state with
      view := view, viewOk := true, history := historyPush state.history view } _
    refine ⟨hkept, hok, hhistory, fun frame shown hframe hshown => ?_⟩
    cases Option.some.inj hframe
    exact (Option.some.inj hshown).symm

end Pass

variable (env)

def taken (n : Nat) : Option Overview :=
  if (runInteractive env n).state.screen = .overview ∧ (passAt env n).isSome then
    (collectOverview env).value ((runInteractive env n).now + 1)
  else none

def views (n : Nat) : List Overview := Trace.labels (taken env) 0 n

structure Latest (n : Nat) : Prop where
  view : ∀ view ∈ (views env n).getLast?, (runInteractive env n).state.view = view
  viewOk : (runInteractive env n).state.screen ≠ .overview →
    (views env n ≠ []) ∧ (runInteractive env n).state.viewOk = true
  history : (runInteractive env n).state.history = (views env n).foldl historyPush ⟨[], []⟩

theorem views_succ (n : Nat) : views env (n + 1) = views env n ++ (taken env n).toList := by
  unfold views
  rw [Trace.labels_succ, Nat.zero_add]

theorem taken_none {n : Nat} (h : passAt env n = none) : taken env n = none := by
  simp [taken, h]

theorem taken_plain {n : Nat} (h : (runInteractive env n).state.screen ≠ .overview) :
    taken env n = none := by
  simp [taken, h]

theorem taken_overview {n : Nat} {pass : Pass} (hpass : passAt env n = some pass)
    (h : (runInteractive env n).state.screen = .overview) :
    taken env n = (collectOverview env).value ((runInteractive env n).now + 1) := by
  simp [taken, h, hpass]

theorem latest_succ {n : Nat} (h : Latest env n) : Latest env (n + 1) := by
  obtain ⟨hview, hok, hhistory⟩ := h
  cases hpass : passAt env n with
  | none =>
    have hstate := (passAt_none env hpass).1
    have hviews : views env (n + 1) = views env n := by
      rw [views_succ, taken_none env hpass, Option.toList_none, List.append_nil]
    refine ⟨?_, ?_, ?_⟩
    · rw [hviews, hstate]
      exact hview
    · rw [hviews, hstate]
      exact hok
    · rw [hviews, hstate]
      exact hhistory
  | some pass =>
    obtain ⟨hvalue, hstate, -⟩ := passAt_some env hpass
    by_cases hscreen : (runInteractive env n).state.screen = .overview
    · have htaken := taken_overview env hpass hscreen
      rcases @loopPass_overview env (runInteractive env n).now (runInteractive env n).state
        (runInteractive env n).consumed hscreen with ⟨hnone, hfailed⟩ | ⟨view, hsome, htakes⟩
      · have hviews : views env (n + 1) = views env n := by
          rw [views_succ, htaken, hnone, Option.toList_none, List.append_nil]
        rw [hvalue, hfailed] at hstate
        refine ⟨?_, ?_, ?_⟩
        · rw [hviews, hstate]
          exact hview
        · rw [hstate]
          exact fun hother => absurd hscreen hother
        · rw [hviews, hstate]
          exact hhistory
      · have hviews : views env (n + 1) = views env n ++ [view] := by
          rw [views_succ, htaken, hsome, Option.toList_some]
        rw [← hvalue] at htakes
        refine ⟨?_, fun _ => ⟨?_, hstate ▸ htakes.viewOk⟩, ?_⟩
        · intro last hlast
          rw [hviews, List.getLast?_concat] at hlast
          rw [hstate, htakes.latest]
          exact Option.some.inj hlast
        · rw [hviews]
          exact List.append_ne_nil_of_right_ne_nil _ (List.cons_ne_nil _ _)
        · rw [hviews, List.foldl_concat, ← hhistory, hstate]
          exact htakes.history
    · have hviews : views env (n + 1) = views env n := by
        rw [views_succ, taken_plain env hscreen, Option.toList_none, List.append_nil]
      obtain ⟨⟨hkept, hkeptOk, hkeptHistory⟩, -⟩ := @loopPass_plain env (runInteractive env n).now
        (runInteractive env n).state (runInteractive env n).consumed hscreen
      rw [← hvalue, ← hstate] at hkept hkeptOk hkeptHistory
      rw [← hviews] at hview hok hhistory
      refine ⟨fun view hlast => hkept.trans (hview view hlast), fun _ => ?_,
        hkeptHistory.trans hhistory⟩
      exact ⟨(hok hscreen).1, hkeptOk.trans (hok hscreen).2⟩

theorem latest (n : Nat) : Latest env n := by
  induction n with
  | zero =>
    refine ⟨fun view hview => ?_, fun h => absurd rfl h, rfl⟩
    cases hview
  | succ n ih => exact latest_succ env ih

theorem exists_collect {n : Nat} {view : Overview} (h : view ∈ views env n) :
    ∃ time, (collectOverview env).value time = some view := by
  unfold views Trace.labels at h
  obtain ⟨i, -, htaken⟩ := List.mem_filterMap.mp h
  unfold taken at htaken
  split_ifs at htaken
  exact ⟨_, htaken⟩

theorem mem_views {n : Nat} {view : Overview} (h : view ∈ views env n) : WellFormed view := by
  obtain ⟨time, hcollect⟩ := exists_collect env h
  exact collectOverview_wellFormed hcollect

structure Shown (n : Nat) : Prop where
  wellFormed : ∀ view ∈ views env n, WellFormed view
  /-- Whatever the screen, the overview in its frame is the last one that was taken, and is
  taken for one. -/
  drawn : ∀ pass frame shown, passAt env n = some pass → pass.frame = some frame →
    viewOf frame.drawing = some shown →
      shown.2 = true ∧ (views env (n + 1)).getLast? = some shown.1
  history : (runInteractive env n).state.history = (views env n).foldl historyPush ⟨[], []⟩

theorem views_shown (n : Nat) : Shown env n := by
  have hlatest := latest env n
  refine ⟨fun view hview => mem_views env hview, ?_, hlatest.history⟩
  intro pass frame shown hpass hframe hshown
  obtain ⟨hvalue, -⟩ := passAt_some env hpass
  by_cases hscreen : (runInteractive env n).state.screen = .overview
  · rcases @loopPass_overview env (runInteractive env n).now (runInteractive env n).state
      (runInteractive env n).consumed hscreen with ⟨-, hfailed⟩ | ⟨view, hsome, htakes⟩
    · rw [hvalue, hfailed] at hframe
      cases hframe
    · rw [← hvalue] at htakes
      rw [htakes.drawn frame shown hframe hshown, views_succ, taken_overview env hpass hscreen,
        hsome, Option.toList_some]
      exact ⟨rfl, List.getLast?_concat⟩
  · have hplain := (@loopPass_plain env (runInteractive env n).now
      (runInteractive env n).state (runInteractive env n).consumed hscreen).drawn
    rw [← hvalue] at hplain
    obtain ⟨hne, hok⟩ := hlatest.viewOk hscreen
    rw [hplain frame shown hframe hshown, views_succ, taken_plain env hscreen, Option.toList_none,
      List.append_nil]
    refine ⟨hok, ?_⟩
    rw [List.getLast?_eq_some_getLast hne]
    exact congrArg some (hlatest.view _ (List.getLast?_eq_some_getLast hne)).symm

end RookieTop.Views
