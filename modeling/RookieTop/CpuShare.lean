import RookieTop.Explorer
import RookieTop.Lives
import RookieTop.Tables.KeyedSum
import RookieTop.Ticks
import Mathlib.Algebra.BigOperators.Field
import Mathlib.Algebra.BigOperators.Fin
import Mathlib.Algebra.BigOperators.Ring.Finset

/-! The shares of the CPU against the kernel's accounts. The ticks of a process are
counted until its file is read in the second scan, those of the machine only until
`/proc/stat` has been read before that scan. -/
namespace RookieTop.CpuShare

open CLib Trace Sys Tables ProcDir Host Cpu Memory Disk ProcessCpu ProcessList CollectOverview Explorer
  Kernel Lives Ticks

open scoped BigOperators

/-- Shares of one machine; a negative one stands for a share that is not known. -/
def SharesFit (shares : List ℚ) : Prop :=
  (∀ share ∈ shares, share ≤ 100) ∧ (shares.filter fun share => 0 ≤ share).sum ≤ 100

/-- By time `last` the processes have got no more ticks since `first` than the machine
had counted by `second`, and that count fits its 64 bits. -/
structure Covered (k : Run) (first second last : Nat) : Prop where
  fits : k.window first second < 2 ^ 64
  covered : ∀ insts : Finset Nat, ∑ inst ∈ insts, k.gain inst first last ≤ k.window first second

structure Charged (k : Run) (first last ticks : Nat) (pid : Int) (share : ℚ) : Prop where
  nonneg : 0 ≤ share
  owner : ∃ inst, (∃ t, k.machine.tasks.holder t pid = some inst) ∧
    share ≤ (k.gain inst first last : ℚ) * 100 / ticks

section Sum

variable {k : Run} {first second last : Nat}

theorem Covered.share_le (h : Covered k first second last) (insts : Finset Nat)
    (hpos : 0 < k.window first second) :
    ∑ inst ∈ insts, (k.gain inst first last : ℚ) * 100 / k.window first second ≤ 100 := by
  have hle : (∑ inst ∈ insts, (k.gain inst first last : ℚ)) ≤ k.window first second := by
    exact_mod_cast h.covered insts
  have hpos : (0 : ℚ) < k.window first second := by exact_mod_cast hpos
  rw [← Finset.sum_div, ← Finset.sum_mul, div_le_iff₀ hpos]
  linarith

theorem sharesFit_of_charged {Entry : Type} {entries : List Entry} (pid : Entry → Int)
    {share : Entry → ℚ} (hcovered : Covered k first second last)
    (hpos : 0 < k.window first second) (hnodup : (entries.map pid).Nodup)
    (hcharged : ∀ e ∈ entries, share e < 0 ∨
      Charged k first last (k.window first second) (pid e) (share e)) :
    SharesFit (entries.map share) := by
  constructor
  · intro s hs
    obtain ⟨e, he, rfl⟩ := List.mem_map.mp hs
    rcases hcharged e he with hneg | hcharge
    · linarith
    · obtain ⟨inst, -, hle⟩ := hcharge.owner
      have hone := hcovered.share_le {inst} hpos
      rw [Finset.sum_singleton] at hone
      exact hle.trans hone
  · have hknown : ((entries.filter fun e => 0 ≤ share e).map pid).Nodup :=
      hnodup.sublist (List.filter_sublist.map pid)
    have hfilter : (entries.map share).filter (fun s => decide (0 ≤ s)) =
        (entries.filter fun e => 0 ≤ share e).map share := List.filter_map
    obtain ⟨owners, hsum, -⟩ := exists_sum_le
      (fun inst p => ∃ t, k.machine.tasks.holder t p = some inst) share
      (fun inst => (k.gain inst first last : ℚ) * 100 / k.window first second)
      hknown (fun ⟨_, h⟩ ⟨_, h'⟩ => k.pid_unique h h') fun e he => by
        rw [List.mem_filter, decide_eq_true_eq] at he
        rcases hcharged e he.1 with hneg | hcharge
        · linarith [he.2]
        · exact hcharge.owner
    rw [hfilter]
    exact hsum.trans (hcovered.share_le owners hpos)

end Sum

section Scans

variable (k : Run) (base : Env)

def Counted (start stop : Nat) (pid : Int) (ticks starttime : UInt64) : Prop :=
  ∃ t inst, start ≤ t ∧ t ≤ stop ∧ k.machine.tasks.holder t pid = some inst ∧
    ticks.toNat = (k.machine.task t inst).ticks ∧ k.machine.tasks.stamp inst = starttime

theorem Counted.mono {k : Run} {start start' stop : Nat} {pid : Int} {ticks starttime : UInt64}
    (h : Counted k start stop pid ticks starttime) (hstart : start' ≤ start) :
    Counted k start' stop pid ticks starttime := by
  obtain ⟨t, inst, ht, hrest⟩ := h
  exact ⟨t, inst, hstart.trans ht, hrest⟩

theorem readProcessStat_after_lt (pid : Int) (n : Nat) :
    n + 1 ≤ (readProcessStat base pid).after n := by
  unfold readProcessStat
  simp only [Calls.after_bind, readLine_after]
  apply le_trans _ (Calls.le_after _ _)
  split_ifs <;> omega

theorem readCounter_after (pid : Int) (n : Nat) :
    (readCounter base pid).after n = (readProcessStat base pid).after n := by
  unfold readCounter
  rw [Calls.after_bind, Calls.after_pure]

theorem readInfo_after (previous : List ProcessCpuCounter) (ticks : UInt64) (pid : Int) (n : Nat) :
    (readInfo base previous ticks pid).after n = (readProcessStat base pid).after n := by
  unfold readInfo
  rw [Calls.after_bind, Calls.after_pure]

theorem readProcessStat_counted {pid : Int} {n : Nat} {stat : ProcessCpuStat}
    (h : (readProcessStat (k.env base) pid).value n = some stat) :
    stat.pid = pid ∧ Counted k (n + 1) (n + 1) pid stat.ticks stat.starttime := by
  obtain ⟨inst, -, hheld, hreadable, rfl⟩ := k.machine.readProcessStat_some _ h
  refine ⟨rfl, n + 1, inst, le_refl _, le_refl _, hheld, stat_ticks hreadable pid, ?_⟩
  exact (k.machine.starttime (n + 1) inst).symm

theorem snapshot_counted {n : Nat} {previous : List ProcessCpuCounter}
    (h : (processCpuSnapshotTake (k.env base)).value n = some previous) {old : ProcessCpuCounter}
    (hold : old ∈ previous) :
    Counted k (n + 1) ((processCpuSnapshotTake (k.env base)).after n) old.pid old.ticks
      old.starttime := by
  unfold processCpuSnapshotTake at h ⊢
  simp only [Calls.value_bind, Calls.value_pure, Calls.after_bind, Calls.after_pure,
    Option.map_eq_some_iff] at h ⊢
  obtain ⟨counters, hscan, rfl⟩ := h
  rw [((k.env base).qsort.perm _ counters).mem_iff] at hold
  obtain ⟨dir, visits, -, hvisits, rfl⟩ := scanProc_some hscan
  obtain ⟨v, hv, hread⟩ := mem_records.mp hold
  obtain ⟨hstart, hstop⟩ := hvisits.within v hv
  have hlater := readProcessStat_after_lt (k.env base) v.1 v.2
  rw [readCounter_after] at hstop
  unfold readCounter at hread
  simp only [Calls.value_bind, Calls.value_pure, Option.map_eq_some_iff] at hread
  obtain ⟨stat, hstat, rfl⟩ := hread
  obtain ⟨hpid, t, inst, ht, ht', hcounted⟩ := readProcessStat_counted k base hstat
  rw [← hpid] at hcounted
  exact ⟨t, inst, by omega, by omega, hcounted⟩

theorem cpuShare_charged {start stop first last : Nat} {pid : Int} {current : ProcessCpuStat}
    {previous : List ProcessCpuCounter} (ticks : UInt64)
    (hprevious : ∀ old ∈ previous, Counted k first stop old.pid old.ticks old.starttime)
    (hcurrent : Counted k start last pid current.ticks current.starttime) :
    Charged k first last ticks.toNat pid (cpuShare previous ticks pid current) := by
  obtain ⟨t, inst, -, hlast, hheld, hticks, hstamp⟩ := hcurrent
  have hzero : Charged k first last ticks.toNat pid 0 :=
    ⟨le_refl 0, inst, ⟨t, hheld⟩, by positivity⟩
  unfold cpuShare
  cases hfind : findPrevious previous pid with
  | none => exact hzero
  | some old =>
    dsimp only
    split_ifs with hsame
    · obtain ⟨hmem, rfl⟩ := binarySearch_mem hfind
      obtain ⟨s, inst', hfirst, -, hheld', hticks', hstamp'⟩ := hprevious old hmem
      obtain rfl : inst' = inst := k.machine.tasks.stamp_inj hheld' hheld
        (hstamp'.trans (hsame.1.trans hstamp.symm))
      refine ⟨by positivity, inst', ⟨t, hheld⟩, ?_⟩
      have hgain : (current.ticks - old.ticks).toNat ≤ k.gain inst' first last := by
        rw [UInt64.toNat_sub_of_le _ _ hsame.2, hticks, hticks']
        exact k.gain_mono hfirst hlast
      have hgain : ((current.ticks - old.ticks).toNat : ℚ) ≤ k.gain inst' first last := by
        exact_mod_cast hgain
      gcongr
    · exact hzero

/-- The entries of a second scan have different pids, and are all charged. -/
theorem allSince_charged {n first last : Nat} {previous : List ProcessCpuCounter} {ticks : UInt64}
    {stop : Nat} {items : List ProcessCpuInfo}
    (hprevious : ∀ old ∈ previous, Counted k first stop old.pid old.ticks old.starttime)
    (h : (processCpuAllSince (k.env base) previous ticks).value n = some items)
    (hlast : (processCpuAllSince (k.env base) previous ticks).after n ≤ last) :
    (items.map ProcessCpuInfo.pid).Nodup ∧
      ∀ info ∈ items, Charged k first last ticks.toNat info.pid info.cpuPercent := by
  unfold processCpuAllSince at h hlast
  split_ifs at h hlast
  · cases h
  simp only [Calls.value_bind, Calls.value_pure, Calls.after_bind, Calls.after_pure,
    Option.map_eq_some_iff] at h hlast
  obtain ⟨found, hscan, rfl⟩ := h
  have hperm := (k.env base).qsort.perm compareInfoPid found
  obtain ⟨dir, visits, hdir, hvisits, rfl⟩ := scanProc_some hscan
  have hread : ∀ v ∈ visits, ∀ info, (readInfo (k.env base) previous ticks v.1).value v.2 = some info →
      info.pid = v.1 ∧ Charged k first last ticks.toNat info.pid info.cpuPercent := by
    intro v hv info hinfo
    obtain ⟨-, hstop⟩ := hvisits.within v hv
    have hlater := readProcessStat_after_lt (k.env base) v.1 v.2
    rw [readInfo_after] at hstop
    unfold readInfo at hinfo
    simp only [Calls.value_bind, Calls.value_pure, Option.map_eq_some_iff] at hinfo
    obtain ⟨current, hcurrent, rfl⟩ := hinfo
    obtain ⟨hpid, t, inst, ht, ht', hcounted⟩ := readProcessStat_counted k base hcurrent
    refine ⟨hpid, ?_⟩
    dsimp only
    rw [hpid]
    exact cpuShare_charged k ticks hprevious ⟨t, inst, ht, by omega, hcounted⟩
  constructor
  · rw [(hperm.map _).nodup_iff]
    have hsublist := map_records_sublist fun v hv info hinfo => (hread v hv info hinfo).1
    rw [hvisits.pids, k.directory_names base hdir] at hsublist
    exact (k.names_once n).sublist hsublist
  · intro info hinfo
    obtain ⟨v, hv, hvalue⟩ := mem_records.mp (hperm.mem_iff.mp hinfo)
    exact (hread v hv info hvalue).2

end Scans

section Samplers

variable (env : Env)

def explorerSecond (n : Nat) : Nat :=
  (waitNs env).after ((processCpuSnapshotTake env).after ((cpuRead env).after n))

/-- When the overview opens `/proc/stat` the first time, and the second. -/
def overviewFirst (n : Nat) : Nat :=
  (diskReadRoot env).after ((memoryRead env).after ((hostRead env).after n))

def overviewSnapshot (n : Nat) : Nat :=
  (networkAt env).after ((cpuRead env).after (overviewFirst env n))

def overviewSecond (n : Nat) : Nat :=
  (waitNs env).after ((processCpuSnapshotTake env).after (overviewSnapshot env n))

def ticksBetween (a b : Nat) : Option UInt64 :=
  ((cpuRead env).value a).bind fun prev => ((cpuRead env).value b).bind (cpuTotalDelta prev)

def overviewScanned (n : Nat) : Nat :=
  let first := (networkAt env).value ((cpuRead env).after (overviewFirst env n))
  let previous := (processCpuSnapshotTake env).value (overviewSnapshot env n)
  let ticks := (ticksBetween env (overviewFirst env n) (overviewSecond env n)).getD 0
  (cpuTopSince env previous ticks).after
    ((networkSince env first).after ((cpuRead env).after (overviewSecond env n)))

/-- A sample that is begun at time `n`: when it reads the counters of `/proc/stat`, when its
second scan is done, and the shares that it has got. The scan is all that the explorer has
left to do. -/
inductive Sampled (n : Nat) : Nat → Nat → Nat → List ℚ → Prop where
  | explorer {rows : List ProcessRow} (h : (sampleProcessRows env).value n = some rows) :
    Sampled n (n + 1) (explorerSecond env n + 1) ((sampleProcessRows env).after n)
      (rows.map ProcessRow.cpuPercent)
  | overview {view : Overview} (h : (collectOverview env).value n = some view) :
    Sampled n (overviewFirst env n + 1) (overviewSecond env n + 1) (overviewScanned env n)
      (view.cpuTop.map ProcessCpuInfo.cpuPercent)

theorem ticksBetween_some {a b : Nat} {prev curr : CpuSample}
    (hprev : (cpuRead env).value a = some prev) (hcurr : (cpuRead env).value b = some curr) :
    ticksBetween env a b = cpuTotalDelta prev curr := by
  simp [ticksBetween, hprev, hcurr]

theorem sampleWindow_some {n : Nat} {previous : List ProcessCpuCounter} {ticks : UInt64}
    (h : (sampleWindow env).value n = some (previous, ticks)) :
    (processCpuSnapshotTake env).value ((cpuRead env).after n) = some previous ∧
      ticksBetween env n (explorerSecond env n) = some ticks := by
  unfold sampleWindow at h
  simp only [Calls.value_bind] at h
  cases hprev : (cpuRead env).value n with
  | none => simp [hprev] at h
  | some prev =>
    simp only [hprev, Calls.value_bind] at h
    cases hsnap : (processCpuSnapshotTake env).value ((cpuRead env).after n) with
    | none => simp [hsnap] at h
    | some snapshot =>
      simp only [hsnap, Calls.value_bind] at h
      split_ifs at h
      · cases hcurr : (cpuRead env).value (explorerSecond env n) with
        | none =>
          unfold explorerSecond at hcurr
          simp [hcurr] at h
        | some curr =>
          have hcurr' := hcurr
          unfold explorerSecond at hcurr'
          simp only [Calls.value_bind, hcurr', Calls.value_pure, Option.map_eq_some_iff,
            Prod.mk.injEq] at h
          obtain ⟨_, hticks, rfl, rfl⟩ := h
          exact ⟨rfl, (ticksBetween_some env hprev hcurr).trans hticks⟩
      · cases h

theorem processCpuTopSince_some {previous : List ProcessCpuCounter} {ticks : UInt64} {cap n : Nat}
    {top : List ProcessCpuInfo} {total : Nat}
    (h : (processCpuTopSince env previous ticks cap).value n = some (top, total)) :
    ∃ all, (processCpuAllSince env previous ticks).value n = some all ∧
      (processCpuAllSince env previous ticks).after n =
        (processCpuTopSince env previous ticks cap).after n ∧ List.Subperm top all := by
  unfold processCpuTopSince at h ⊢
  split_ifs at h ⊢
  · cases h
  simp only [Calls.value_bind, Calls.value_pure, Calls.after_bind, Calls.after_pure,
    Option.map_eq_some_iff, Prod.mk.injEq] at h ⊢
  obtain ⟨all, hall, rfl, -⟩ := h
  refine ⟨all, hall, trivial, ?_⟩
  exact (top_subperm _ cap _).trans List.filter_sublist.subperm

theorem finishOverview_some {host : Option HostInfo} {memory : MemorySample} {disk : DiskSample}
    {cpuPrev cpuCurr : CpuSample} {first : Option (Network.NetworkSample × Timespec)}
    {previous : Option (List ProcessCpuCounter)} {n : Nat} {view : Overview}
    (h : (finishOverview env host memory disk cpuPrev cpuCurr first previous).value n = some view) :
    ∃ ticks, cpuTotalDelta cpuPrev cpuCurr = some ticks ∧
      (view.cpuTop = [] ∨ ∃ counters u all, previous = some counters ∧
        (processCpuAllSince env counters ticks).value u = some all ∧
        (processCpuAllSince env counters ticks).after u =
          (cpuTopSince env previous ticks).after ((networkSince env first).after n) ∧
        List.Subperm view.cpuTop all) := by
  unfold finishOverview at h
  simp only [Calls.value_bind] at h
  split at h
  · rename_i cpuPercent ticks usage diskUsed hpercent hticks husage hdisk
    refine ⟨ticks, hticks, ?_⟩
    simp only [Calls.value_bind, Calls.value_pure, Option.some.injEq] at h
    subst h
    cases previous with
    | none => exact Or.inl rfl
    | some counters =>
      unfold cpuTopSince
      cases htop : (processCpuTopSince env counters ticks topProcessCount).value
          ((networkSince env first).after n) with
      | none => exact Or.inl (by simp [overviewOf])
      | some top =>
        obtain ⟨all, hall, hafter, hsub⟩ := processCpuTopSince_some env htop
        exact Or.inr ⟨counters, _, all, rfl, hall, hafter, by simpa [overviewOf, htop] using hsub⟩
  · cases h

theorem collectOverview_some {n : Nat} {view : Overview}
    (h : (collectOverview env).value n = some view) :
    ∃ ticks, ticksBetween env (overviewFirst env n) (overviewSecond env n) = some ticks ∧
      (view.cpuTop = [] ∨ ∃ counters u all,
        (processCpuSnapshotTake env).value (overviewSnapshot env n) = some counters ∧
        (processCpuAllSince env counters ticks).value u = some all ∧
        (processCpuAllSince env counters ticks).after u = overviewScanned env n ∧
        List.Subperm view.cpuTop all) := by
  unfold collectOverview at h
  simp only [Calls.value_bind] at h
  cases hmemory : (memoryRead env).value ((hostRead env).after n) with
  | none => simp [hmemory] at h
  | some memory =>
    simp only [hmemory, Calls.value_bind] at h
    cases hdisk : (diskReadRoot env).value ((memoryRead env).after ((hostRead env).after n)) with
    | none => simp [hdisk] at h
    | some disk =>
      simp only [hdisk, Calls.value_bind] at h
      cases hprev : (cpuRead env).value (overviewFirst env n) with
      | none =>
        unfold overviewFirst at hprev
        simp [hprev] at h
      | some cpuPrev =>
        have hprev' := hprev
        unfold overviewFirst at hprev'
        simp only [hprev', Calls.value_bind] at h
        split_ifs at h with hwait
        · simp only [Calls.value_bind] at h
          cases hcurr : (cpuRead env).value (overviewSecond env n) with
          | none =>
            unfold overviewSecond overviewSnapshot overviewFirst at hcurr
            simp [hcurr] at h
          | some cpuCurr =>
            have hcurr' := hcurr
            unfold overviewSecond overviewSnapshot overviewFirst at hcurr'
            simp only [hcurr'] at h
            obtain ⟨ticks, hticks, htop⟩ := finishOverview_some env h
            have hbetween := (ticksBetween_some env hprev hcurr).trans hticks
            refine ⟨ticks, hbetween, ?_⟩
            unfold overviewScanned
            rw [hbetween, Option.getD_some]
            exact htop
        · cases h

end Samplers

section

variable (k : Run) (base : Env)

theorem ticksBetween_window {a b : Nat} {ticks : UInt64}
    (h : ticksBetween (k.env base) a b = some ticks) (hfits : k.window (a + 1) (b + 1) < 2 ^ 64) :
    ticks.toNat = k.window (a + 1) (b + 1) ∧ 0 < k.window (a + 1) (b + 1) := by
  obtain ⟨prev, hprev, h⟩ := Option.bind_eq_some_iff.mp h
  obtain ⟨curr, hcurr, hdelta⟩ := Option.bind_eq_some_iff.mp h
  cases k.cpuRead_some base hprev
  cases k.cpuRead_some base hcurr
  obtain ⟨-, htotal, hne⟩ := cpuTotalDelta_toNat hdelta
  unfold Run.window at hfits ⊢
  rw [Nat.mod_eq_of_lt hfits] at htotal
  refine ⟨htotal, ?_⟩
  rw [← htotal]
  exact Nat.pos_of_ne_zero fun hzero => hne (UInt64.toNat_inj.mp hzero)

theorem sharesFit_of_neg {shares : List ℚ} (h : ∀ share ∈ shares, share < 0) :
    SharesFit shares := by
  have hnone : (shares.filter fun share => 0 ≤ share) = [] := by
    rw [List.filter_eq_nil_iff]
    intro share hshare
    simpa using h share hshare
  constructor
  · intro share hshare
    linarith [h share hshare]
  · rw [hnone]
    norm_num

theorem explorer_sharesFit {n : Nat} {rows : List ProcessRow}
    (hrows : (sampleProcessRows (k.env base)).value n = some rows)
    (hcovered : Covered k (n + 1) (explorerSecond (k.env base) n + 1)
      ((sampleProcessRows (k.env base)).after n)) :
    SharesFit (rows.map ProcessRow.cpuPercent) := by
  obtain ⟨listed, hlisted, hjoin⟩ := sampleProcessRows_cases (k.env base) hrows
  obtain ⟨⟨dir, hdir, hsublist⟩, hunknown⟩ := processListRead_keeps (k.env base) hlisted
  rcases hjoin with rfl | ⟨previous, ticks, items, hwindow, hitems, rfl⟩
  · apply sharesFit_of_neg
    intro share hshare
    obtain ⟨row, hrow, rfl⟩ := List.mem_map.mp hshare
    rw [hunknown row hrow]
    norm_num
  · obtain ⟨hsnap, hbetween⟩ := sampleWindow_some (k.env base) hwindow
    obtain ⟨hticks, hpos⟩ := ticksBetween_window k base hbetween hcovered.fits
    have hstart := Calls.le_after (cpuRead (k.env base)) n
    obtain ⟨-, hcharged⟩ := allSince_charged k base
      (fun old hold => (snapshot_counted k base hsnap hold).mono (Nat.succ_le_succ hstart))
      hitems (scanned_after (k.env base) hlisted hwindow).le
    rw [hticks] at hcharged
    apply sharesFit_of_charged ProcessRow.pid hcovered hpos
    · have hpids : (listed.map (joinShare items)).map ProcessRow.pid =
          listed.map ProcessRow.pid := by
        rw [List.map_map]
        apply List.map_congr_left
        intro row _
        exact joinShare_pid items row
      rw [hpids]
      rw [k.directory_names base hdir] at hsublist
      exact (k.names_once _).sublist hsublist
    · intro row hrow
      obtain ⟨old, hold, rfl⟩ := List.mem_map.mp hrow
      rw [joinShare_pid]
      rcases joinShare_cases items old with hsame | ⟨info, hinfo, hpid, -, hshare⟩
      · rw [hsame, hunknown old hold]
        left
        norm_num
      · rw [hshare, ← hpid]
        exact Or.inr (hcharged info hinfo)

theorem overview_sharesFit {n : Nat} {view : Overview}
    (hview : (collectOverview (k.env base)).value n = some view)
    (hcovered : Covered k (overviewFirst (k.env base) n + 1) (overviewSecond (k.env base) n + 1)
      (overviewScanned (k.env base) n)) :
    SharesFit (view.cpuTop.map ProcessCpuInfo.cpuPercent) := by
  obtain ⟨ticks, hbetween, htop⟩ := collectOverview_some (k.env base) hview
  obtain ⟨hticks, hpos⟩ := ticksBetween_window k base hbetween hcovered.fits
  rcases htop with hnone | ⟨counters, u, all, hsnap, hall, hafter, hsub⟩
  · rw [hnone]
    exact sharesFit_of_neg (by simp)
  · have hstart : overviewFirst (k.env base) n ≤ overviewSnapshot (k.env base) n :=
      (Calls.le_after _ _).trans (Calls.le_after _ _)
    obtain ⟨hnodup, hcharged⟩ := allSince_charged k base
      (fun old hold => (snapshot_counted k base hsnap hold).mono (Nat.succ_le_succ hstart))
      hall hafter.le
    rw [hticks] at hcharged
    apply sharesFit_of_charged ProcessCpuInfo.pid hcovered hpos
    · obtain ⟨kept, hperm, hsublist⟩ := hsub
      rw [← (hperm.map ProcessCpuInfo.pid).nodup_iff]
      exact hnodup.sublist (hsublist.map ProcessCpuInfo.pid)
    · exact fun info hinfo => Or.inr (hcharged info (hsub.subset hinfo))

/-- Where a sample covers the ticks of its processes, its shares are shares of one machine. -/
theorem sharesFit_of_covered {n first second last : Nat} {shares : List ℚ}
    (h : Sampled (k.env base) n first second last shares) (hcovered : Covered k first second last) :
    SharesFit shares := by
  cases h with
  | explorer hrows => exact explorer_sharesFit k base hrows hcovered
  | overview hview => exact overview_sharesFit k base hview hcovered

end

/-- The life of a process that gets every tick of a stretch of time. -/
structure Turn where
  pid : Int
  born : Nat
  dies : Nat
  starts : Nat
  stops : Nat
  starttime : UInt64
  pid_range : 1 ≤ pid ∧ pid ≤ intMax

namespace Turn

variable (turn : Turn)

def ticks (t : Nat) : Nat := min t turn.stops - min t turn.starts

def life : Life where
  pid := turn.pid
  born := turn.born
  dies := turn.dies
  task t := plainTask (ascii "yes") (by decide) (UInt64.ofNat (turn.ticks t)) turn.starttime
  starttime := turn.starttime
  task_starttime _ := rfl
  pid_range := turn.pid_range

theorem ticks_le (t : Nat) : turn.ticks t ≤ turn.stops := by
  unfold ticks
  omega

theorem ticks_mono : Monotone turn.ticks := by
  intro a b hab
  unfold ticks
  omega

theorem ticks_stopped {second : Nat} (h : turn.stops ≤ second) (t : Nat) :
    turn.ticks t ≤ turn.ticks second := by
  unfold ticks
  omega

end Turn

structure Crowd where
  turns : List Turn
  names : List Bytes
  apart : (turns.map Turn.life).Pairwise Life.Apart
  fits : (turns.map Turn.stops).sum < 2 ^ 64
  names_once : (names.filterMap parsePid).Nodup

namespace Crowd

variable (c : Crowd)

def ticks (t inst : Nat) : Nat := (c.turns[inst]?.map (Turn.ticks · t)).getD 0

def total (t : Nat) : Nat := (c.turns.map (Turn.ticks · t)).sum

def counters (t : Nat) : CpuSample := ⟨UInt64.ofNat (c.total t), 0, 0, 0, 0, 0, 0, 0⟩

theorem task_ticks (t inst : Nat) :
    (taskOf (c.turns.map Turn.life) t inst).ticks = c.ticks t inst := by
  unfold taskOf ticks
  rw [List.getElem?_map]
  cases hturn : c.turns[inst]? with
  | none => rfl
  | some turn =>
    have hmem := @List.mem_map_of_mem _ _ _ _ Turn.stops (List.mem_of_getElem? hturn)
    have hstops := List.le_sum_of_mem hmem
    have htoNat : (UInt64.ofNat (turn.ticks t)).toNat = turn.ticks t :=
      UInt64.toNat_ofNat_of_lt' ((turn.ticks_le t).trans_lt (hstops.trans_lt c.fits))
    simp [Turn.life, Task.ticks, plainTask, plainFields, htoNat]

theorem ticks_mono (inst : Nat) : Monotone fun t => c.ticks t inst := by
  intro a b hab
  dsimp only [ticks]
  cases c.turns[inst]? with
  | none => exact le_refl 0
  | some turn => exact turn.ticks_mono hab

theorem total_lt (t : Nat) : c.total t < 2 ^ 64 := by
  apply lt_of_le_of_lt _ c.fits
  exact List.sum_le_sum fun turn _ => turn.ticks_le t

theorem total_mono : Monotone c.total := by
  intro a b hab
  exact List.sum_le_sum fun turn _ => turn.ticks_mono hab

theorem counters_user (t : Nat) : (c.counters t).user.toNat = c.total t :=
  UInt64.toNat_ofNat_of_lt' (c.total_lt t)

theorem window_counters (a b : Nat) :
    windowTicks (c.counters a) (c.counters b) = c.total b - c.total a := by
  have huser : increase (c.counters a).user (c.counters b).user = c.total b - c.total a := by
    rw [increase, counters_user, counters_user]
  exact huser

theorem total_eq (t : Nat) : c.total t = ∑ inst ∈ Finset.range c.turns.length, c.ticks t inst := by
  rw [total, ← Fin.sum_univ_fun_getElem, Finset.sum_range]
  apply Finset.sum_congr rfl
  intro inst _
  simp [ticks]

theorem gains_le (insts : Finset Nat) {a b : Nat} (hab : a ≤ b) :
    ∑ inst ∈ insts, (c.ticks b inst - c.ticks a inst) ≤ c.total b - c.total a := by
  have hall : ∑ inst ∈ Finset.range c.turns.length, (c.ticks b inst - c.ticks a inst) =
      c.total b - c.total a := by
    rw [total_eq, total_eq]
    exact Finset.sum_tsub_distrib _ fun inst _ => c.ticks_mono inst hab
  rw [← hall]
  apply Finset.sum_le_sum_of_ne_zero
  intro inst _ hne
  rw [Finset.mem_range]
  by_contra hout
  exact hne (by simp [ticks, List.getElem?_eq_none (not_lt.mp hout)])

def run : Run where
  machine := machine (c.turns.map Turn.life) c.apart
  counters := c.counters
  guests := fun _ => (0, 0)
  more := fun _ => []
  names := fun _ => c.names
  names_once := fun _ => c.names_once
  pid_unique := machine_pid_unique _ _
  ticks_mono := fun inst a b hab => by
    have hmono := c.ticks_mono inst hab
    dsimp only at hmono ⊢
    exact (c.task_ticks a inst).trans_le (hmono.trans_eq (c.task_ticks b inst).symm)
  counters_mono := fun {a b} hab => by
    have huser : ¬ (c.counters b).user < (c.counters a).user := by
      rw [UInt64.lt_iff_toNat_lt, counters_user, counters_user]
      exact not_lt.mpr (c.total_mono hab)
    simp only [Regressed, huser, false_or]
    simp [counters]
  conserved := fun insts {a b} hab => by
    have hterm : ∀ inst ∈ insts, (taskOf (c.turns.map Turn.life) b inst).ticks -
        (taskOf (c.turns.map Turn.life) a inst).ticks = c.ticks b inst - c.ticks a inst :=
      fun inst _ => by rw [task_ticks, task_ticks]
    rw [window_counters]
    exact (Finset.sum_congr rfl hterm).trans_le (c.gains_le insts hab)

/-- Ticks behind the second reading of `/proc/stat` are what a sample may fail to cover. -/
theorem covered {first second last : Nat} (hfirst : first ≤ last)
    (hsecond : ∀ turn ∈ c.turns, turn.stops ≤ second) : Covered c.run first second last := by
  have hwindow : c.run.window first second = c.total second - c.total first :=
    c.window_counters first second
  have hsince : windowTicks (c.counters first) (c.counters last) = c.total last - c.total first :=
    c.window_counters first last
  have hlast : c.total last ≤ c.total second :=
    List.sum_le_sum fun turn hturn => turn.ticks_stopped (hsecond turn hturn) last
  constructor
  · have hlt := c.total_lt second
    omega
  · intro insts
    have hsum : ∑ inst ∈ insts, c.run.gain inst first last ≤
        windowTicks (c.counters first) (c.counters last) := c.run.conserved insts hfirst
    omega

end Crowd

/-- Two processes run, one pid goes to another process between the list and the second scan, and
one process is found by the snapshot only. They stop before the second reading of `/proc/stat`. -/
def turnsTaken : List Turn :=
  [⟨7, 0, 1000, 0, 11, 100, by decide⟩, ⟨8, 0, 43, 0, 4, 50, by decide⟩,
    ⟨8, 43, 1000, 0, 0, 300, by decide⟩, ⟨9, 0, 35, 0, 0, 60, by decide⟩,
    ⟨10, 0, 1000, 10, 17, 70, by decide⟩]

theorem turnsTaken_apart : (turnsTaken.map Turn.life).Pairwise Life.Apart := by
  simp [turnsTaken, Life.Apart, Turn.life]

def takingTurns : Crowd where
  turns := turnsTaken
  names := [ascii "10", ascii "7", ascii "9", ascii "8"]
  apart := turnsTaken_apart
  fits := by decide
  names_once := by decide +kernel

theorem turns_fit :
    ∃ rows, (sampleProcessRows (takingTurns.run.env calm)).value 0 = some rows ∧
      rows.map (fun row => (row.pid, row.cpuPercent)) = [(10, 35), (7, 5), (8, -1)] ∧
      SharesFit (rows.map ProcessRow.cpuPercent) := by
  have hshares : ((sampleProcessRows (takingTurns.run.env calm)).value 0).map
      (List.map fun row => (row.pid, row.cpuPercent)) = some [(10, 35), (7, 5), (8, -1)] := by
    decide +kernel
  have hsecond : explorerSecond (takingTurns.run.env calm) 0 + 1 = 20 := by decide +kernel
  have hlast : 1 ≤ (sampleProcessRows (takingTurns.run.env calm)).after 0 := by decide +kernel
  obtain ⟨rows, hrows, heq⟩ := Option.map_eq_some_iff.mp hshares
  refine ⟨rows, hrows, heq, sharesFit_of_covered _ calm (.explorer hrows) ?_⟩
  rw [hsecond]
  exact takingTurns.covered hlast (by decide)

def busy : Crowd where
  turns := [⟨7, 0, 1000, 0, 1000, 100, by decide⟩]
  names := [ascii "7"]
  apart := List.pairwise_singleton _ _
  fits := by decide
  names_once := by decide +kernel

/-- The process gets 10 ticks between the readings of `/proc/stat`, and 17 between those
of its own file. -/
theorem busy_exceeds :
    ((sampleProcessRows (busy.run.env calm)).value 0).map (List.map ProcessRow.cpuPercent) =
        some [170] ∧
      ¬ ∀ first second last shares,
        Sampled (busy.run.env calm) 0 first second last shares → SharesFit shares := by
  have hshares : ((sampleProcessRows (busy.run.env calm)).value 0).map
      (List.map ProcessRow.cpuPercent) = some [170] := by decide +kernel
  refine ⟨hshares, fun h => ?_⟩
  obtain ⟨rows, hrows, heq⟩ := Option.map_eq_some_iff.mp hshares
  have hfit := h _ _ _ _ (.explorer hrows)
  rw [heq] at hfit
  have hle := hfit.1 170 (by simp)
  norm_num at hle

end RookieTop.CpuShare
