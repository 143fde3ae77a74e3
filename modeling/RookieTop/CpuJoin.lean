import RookieTop.CpuShare
import RookieTop.ProcessOrder

/-! The join of three scans of `/proc`: a snapshot before the wait, the list of the
processes and a second scan after it. A share belongs to an instance, a pid with a
start time, and to no other. -/
namespace RookieTop.CpuJoin

open CLib Trace Sys Tables ProcDir ProcessCpu ProcessList Explorer Kernel Lives CpuShare
  ProcessOrder

/-- What `/proc` promises: a directory lists no pid twice, and the stat file of a process
starts with the pid of its directory. -/
structure Procfs (env : Env) : Prop where
  names_once : ∀ {n dir}, env.directory n = some dir → (dir.names.filterMap parsePid).Nodup
  stat_pid : ∀ {opened n pid stat},
    parseStatStream (env.content opened n (.pidStat pid)) = some stat → stat.pid = pid

/-- The row's instance was counted twice, and its ticks did not go back. -/
structure Measured (old : ProcessCpuCounter) (now : ProcessCpuStat) (row : ProcessRow) : Prop where
  before : old.pid = row.pid ∧ old.starttime = row.starttime
  after : now.pid = row.pid ∧ now.starttime = row.starttime
  grown : old.ticks ≤ now.ticks

def counterOf (stat : ProcessCpuStat) : ProcessCpuCounter := ⟨stat.pid, stat.ticks, stat.starttime⟩

def infoOf (previous : List ProcessCpuCounter) (ticks : UInt64) (stat : ProcessCpuStat) :
    ProcessCpuInfo :=
  ⟨stat.pid, stat.name, cpuShare previous ticks stat.pid stat, stat.starttime⟩

section Scans

variable {env : Env}

theorem Procfs.readProcessStat_pid (h : Procfs env) {pid : Int} {n : Nat} {stat : ProcessCpuStat}
    (hstat : (readProcessStat env pid).value n = some stat) : stat.pid = pid := by
  rw [readProcessStat_value] at hstat
  split_ifs at hstat
  exact h.stat_pid hstat

theorem Procfs.records_once (h : Procfs env) {buffers size n : Nat} {found : List ProcessCpuStat}
    (hscan : (scanProc env buffers size (readProcessStat env)).value n = some found) :
    (found.map ProcessCpuStat.pid).Nodup := by
  obtain ⟨dir, visits, hdir, hvisits, rfl⟩ := scanProc_some hscan
  have hsublist : ((records (readProcessStat env) visits).map ProcessCpuStat.pid).Sublist
      (visits.map Prod.fst) := map_records_sublist fun v _ stat hstat => h.readProcessStat_pid hstat
  rw [hvisits.pids] at hsublist
  exact (h.names_once hdir).sublist hsublist

theorem snapshot_eq (n : Nat) :
    (processCpuSnapshotTake env).value n =
      ((scanProc env 2 24 (readProcessStat env)).value n).map fun found =>
        env.qsort.sort compareCounter (found.map counterOf) := by
  have hscan := @scanProc_map ProcessCpuStat env 24 (readProcessStat env) ProcessCpuCounter counterOf
    (readCounter env) (fun pid n => ⟨rfl, readCounter_after env pid n⟩) 2 n
  unfold processCpuSnapshotTake
  simp only [Calls.value_bind, Calls.value_pure, hscan, Option.map_map]
  rfl

theorem allSince_eq (h : Procfs env) (previous : List ProcessCpuCounter) {ticks : UInt64}
    (hticks : ticks ≠ 0) (n : Nat) :
    (processCpuAllSince env previous ticks).value n =
      ((scanProc env 1 88 (readProcessStat env)).value n).map fun found =>
        env.qsort.sort compareInfoPid (found.map (infoOf previous ticks)) := by
  have hread : ∀ pid n, (readInfo env previous ticks pid).value n =
      ((readProcessStat env pid).value n).map (infoOf previous ticks) := by
    intro pid n
    unfold readInfo
    simp only [Calls.value_bind, Calls.value_pure]
    cases hstat : (readProcessStat env pid).value n with
    | none => rfl
    | some stat =>
      rw [Option.map_some, Option.map_some, infoOf, h.readProcessStat_pid hstat]
  have hscan := @scanProc_map ProcessCpuStat env 88 (readProcessStat env) ProcessCpuInfo
    (infoOf previous ticks) (readInfo env previous ticks)
    (fun pid n => ⟨hread pid n, readInfo_after env previous ticks pid n⟩) 1 n
  unfold processCpuAllSince
  rw [if_neg hticks]
  simp only [Calls.value_bind, Calls.value_pure, hscan, Option.map_map]
  rfl

theorem snapshot_pids (h : Procfs env) {n : Nat} {previous : List ProcessCpuCounter}
    (hprevious : (processCpuSnapshotTake env).value n = some previous) :
    previous.Pairwise fun a b => a.pid < b.pid := by
  rw [snapshot_eq] at hprevious
  obtain ⟨found, hscan, rfl⟩ := Option.map_eq_some_iff.mp hprevious
  apply sort_pids fun _ _ => rfl
  rw [List.map_map]
  exact h.records_once hscan

end Scans

section Share

variable {previous : List ProcessCpuCounter} {pid : Int} {current : ProcessCpuStat}

theorem cpuShare_of_mem (hsorted : previous.Pairwise fun a b => a.pid < b.pid) (ticks : UInt64)
    {old : ProcessCpuCounter} (hold : old ∈ previous) (hpid : old.pid = pid)
    (hstart : old.starttime = current.starttime) (hgrown : old.ticks ≤ current.ticks) :
    cpuShare previous ticks pid current =
      100 * ((current.ticks.toNat : ℚ) - old.ticks.toNat) / ticks.toNat := by
  have hfind : findPrevious previous pid = some old :=
    (binarySearch_eq_some_iff hsorted).mpr ⟨hold, hpid⟩
  have hle : old.ticks.toNat ≤ current.ticks.toNat := UInt64.le_iff_toNat_le.mp hgrown
  unfold cpuShare
  simp only [hfind]
  rw [if_pos ⟨hstart, hgrown⟩, UInt64.toNat_sub_of_le _ _ hgrown, Nat.cast_sub hle, mul_comm]

theorem cpuShare_cases (ticks : UInt64) :
    cpuShare previous ticks pid current = 0 ∨
      0 ≤ cpuShare previous ticks pid current ∧ ∃ old ∈ previous, old.pid = pid ∧
        old.starttime = current.starttime ∧ old.ticks ≤ current.ticks := by
  unfold cpuShare
  cases hfind : findPrevious previous pid with
  | none => exact Or.inl rfl
  | some old =>
    obtain ⟨hmem, hpid⟩ := binarySearch_mem hfind
    dsimp only
    split_ifs with hsame
    · exact Or.inr ⟨by positivity, old, hmem, hpid, hsame.1, hsame.2⟩
    · exact Or.inl rfl

end Share

/-- What a join makes of a snapshot, of the records that a second scan has read, and of
the rows. -/
structure Exact (previous : List ProcessCpuCounter) (ticks : UInt64) (found : List ProcessCpuStat)
    (items : List ProcessCpuInfo) (rows joined : List ProcessRow) : Prop where
  sorted : items.Pairwise fun a b => a.pid < b.pid
  entries : (items.map fun info => (info.pid, info.name, info.starttime)).Perm
    (found.map fun stat => (stat.pid, stat.name, stat.starttime))
  kept : joined.map (fun row => { row with cpuPercent := -1 }) = rows
  measured : ∀ row ∈ joined, ∀ old ∈ previous, ∀ now ∈ found, Measured old now row →
    row.cpuPercent = 100 * ((now.ticks.toNat : ℚ) - old.ticks.toNat) / ticks.toNat
  unmeasured : ∀ row ∈ joined, (¬ ∃ old ∈ previous, ∃ now ∈ found, Measured old now row) →
    row.cpuPercent ≤ 0

section Join

variable {env : Env} {previous : List ProcessCpuCounter} {ticks : UInt64}
  {found : List ProcessCpuStat} {items : List ProcessCpuInfo}

structure Scanned (previous : List ProcessCpuCounter) (ticks : UInt64)
    (found : List ProcessCpuStat) (items : List ProcessCpuInfo) : Prop where
  once : (found.map ProcessCpuStat.pid).Nodup
  perm : items.Perm (found.map (infoOf previous ticks))
  sorted : items.Pairwise fun a b => a.pid < b.pid

theorem allSince_scanned (hproc : Procfs env) {n : Nat}
    (hitems : (processCpuAllSince env previous ticks).value n = some items) :
    ∃ found, (scanProc env 1 88 (readProcessStat env)).value n = some found ∧
      Scanned previous ticks found items := by
  have hticks : ticks ≠ 0 := by
    rintro rfl
    cases hitems
  rw [allSince_eq hproc previous hticks] at hitems
  obtain ⟨found, hscan, rfl⟩ := Option.map_eq_some_iff.mp hitems
  have honce := hproc.records_once hscan
  refine ⟨found, hscan, honce, env.qsort.perm _ _, ?_⟩
  apply sort_pids fun _ _ => rfl
  rw [List.map_map]
  exact honce

theorem Scanned.mem (h : Scanned previous ticks found items) {info : ProcessCpuInfo}
    (hinfo : info ∈ items) : ∃ now ∈ found, infoOf previous ticks now = info :=
  List.mem_map.mp (h.perm.mem_iff.mp hinfo)

theorem Scanned.join (h : Scanned previous ticks found items) {now : ProcessCpuStat}
    (hnow : now ∈ found) {row : ProcessRow} (hpid : now.pid = row.pid)
    (hstart : now.starttime = row.starttime) :
    joinShare items row = { row with cpuPercent := cpuShare previous ticks row.pid now } := by
  have hmem : infoOf previous ticks now ∈ items :=
    h.perm.mem_iff.mpr (List.mem_map_of_mem hnow)
  have hfind : findCpuInfo items row.pid = some (infoOf previous ticks now) :=
    (binarySearch_eq_some_iff h.sorted).mpr ⟨hmem, hpid⟩
  unfold joinShare
  simp only [hfind]
  rw [infoOf, if_pos hstart, hpid]

theorem Scanned.measured_of_pos (h : Scanned previous ticks found items) {row : ProcessRow}
    (hlisted : row.cpuPercent = -1) (hpos : 0 < (joinShare items row).cpuPercent) :
    ∃ old ∈ previous, ∃ now ∈ found, Measured old now (joinShare items row) := by
  rcases joinShare_cases items row with hsame | ⟨info, hinfo, hpid, hstart, hshare⟩
  · rw [hsame, hlisted] at hpos
    norm_num at hpos
  · obtain ⟨now, hnow, rfl⟩ := h.mem hinfo
    rw [hshare] at hpos ⊢
    rcases @cpuShare_cases previous now.pid now ticks with
      hzero | ⟨-, old, hold, holdpid, holdstart, hgrown⟩
    · exact absurd hzero hpos.ne'
    · exact ⟨old, hold, now, hnow,
        ⟨holdpid.trans hpid, holdstart.trans hstart⟩, ⟨hpid, hstart⟩, hgrown⟩

theorem Scanned.exact (h : Scanned previous ticks found items)
    (hprevious : previous.Pairwise fun a b => a.pid < b.pid) {rows : List ProcessRow}
    (hlisted : ∀ row ∈ rows, row.cpuPercent = -1) :
    Exact previous ticks found items rows (rows.map (joinShare items)) where
  sorted := h.sorted
  entries := by
    have hperm := h.perm.map fun info => (info.pid, info.name, info.starttime)
    rwa [List.map_map] at hperm
  kept := by
    rw [List.map_map, List.map_congr_left, List.map_id]
    intro row hrow
    have hminus : { row with cpuPercent := -1 } = row := by rw [← hlisted row hrow]
    obtain ⟨share, hshare⟩ := joinShare_keeps items row
    rw [Function.comp_apply, id_eq, hshare, hminus]
  measured := by
    intro joined hjoined old hold now hnow hmeasured
    obtain ⟨row, hrow, rfl⟩ := List.mem_map.mp hjoined
    obtain ⟨hbefore, hafter, hgrown⟩ := hmeasured
    rw [joinShare_pid, joinShare_starttime] at hbefore hafter
    rw [h.join hnow hafter.1 hafter.2]
    exact cpuShare_of_mem hprevious ticks hold hbefore.1 (hbefore.2.trans hafter.2.symm) hgrown
  unmeasured := by
    intro joined hjoined hnone
    obtain ⟨row, hrow, rfl⟩ := List.mem_map.mp hjoined
    by_contra hpos
    exact hnone (h.measured_of_pos (hlisted row hrow) (not_le.mp hpos))

end Join

/-- Whatever the three scans have seen, a tick is credited to the instance that used it. -/
theorem join_exact {env : Env} (hproc : Procfs env) {n₁ n₂ n₃ : Nat}
    {previous : List ProcessCpuCounter} {ticks : UInt64} {rows : List ProcessRow}
    {items : List ProcessCpuInfo}
    (hprevious : (processCpuSnapshotTake env).value n₁ = some previous)
    (hrows : (processListRead env).value n₂ = some rows)
    (hitems : (processCpuAllSince env previous ticks).value n₃ = some items) :
    ∃ found, (scanProc env 1 88 (readProcessStat env)).value n₃ = some found ∧
      Exact previous ticks found items rows (rows.map (joinShare items)) := by
  obtain ⟨found, hscan, hscanned⟩ := allSince_scanned hproc hitems
  exact ⟨found, hscan, hscanned.exact (snapshot_pids hproc hprevious)
    (processListRead_keeps env hrows).2⟩

theorem machine_procfs (m : Machine) {base : Env}
    (hnames : ∀ {n dir}, base.directory n = some dir → (dir.names.filterMap parsePid).Nodup) :
    Procfs (m.env base) where
  names_once h := hnames h
  stat_pid := by
    intro opened n pid stat hstat
    rcases m.stream_cases base opened n pid (.pidStat pid) with hfault | ⟨inst, -, hread, htext⟩
    · rw [show (m.env base).content opened n (.pidStat pid) = ⟨[], true⟩ from hfault] at hstat
      cases hstat
    · obtain ⟨hpid, hmax⟩ := m.pid_range hread
      rw [show (m.env base).content opened n (.pidStat pid) = _ from htext] at hstat
      rcases (m.task n inst).parseStatStream_statText hpid hmax with ⟨-, hparse⟩ | ⟨-, hparse⟩
      · cases hparse.symm.trans hstat
        rfl
      · cases hparse.symm.trans hstat

def turnsPrevious : List ProcessCpuCounter :=
  [⟨7, 10, 100⟩, ⟨8, 4, 50⟩, ⟨9, 0, 60⟩, ⟨10, 0, 70⟩]

def turnsItems : List ProcessCpuInfo :=
  [⟨7, ascii "yes", 5, 100⟩, ⟨8, ascii "yes", 0, 300⟩, ⟨10, ascii "yes", 35, 70⟩]

def turnsRow (pid : Int) (starttime : UInt64) (share : ℚ) : ProcessRow :=
  { emptyRow pid with
    name := ascii "yes"
    starttime := starttime
    cpuPercent := share }

def turnsRows : List ProcessRow := [turnsRow 10 70 (-1), turnsRow 7 100 (-1), turnsRow 8 50 (-1)]

theorem turns_procfs : Procfs (takingTurns.run.env calm) := by
  apply machine_procfs
  intro n dir hdir
  cases hdir
  exact takingTurns.names_once

theorem turns_join :
    turnsRows.map (joinShare turnsItems) =
        [turnsRow 10 70 35, turnsRow 7 100 5, turnsRow 8 50 (-1)] ∧
      ∃ found, (scanProc (takingTurns.run.env calm) 1 88
          (readProcessStat (takingTurns.run.env calm))).value 43 = some found ∧
        Exact turnsPrevious 20 found turnsItems turnsRows (turnsRows.map (joinShare turnsItems)) := by
  have hprevious : (processCpuSnapshotTake (takingTurns.run.env calm)).value 3 =
      some turnsPrevious := by decide +kernel
  have hrows : (processListRead (takingTurns.run.env calm)).value 22 = some turnsRows := by
    decide +kernel
  have hitems : (processCpuAllSince (takingTurns.run.env calm) turnsPrevious 20).value 43 =
      some turnsItems := by decide +kernel
  exact ⟨by decide +kernel, join_exact turns_procfs hprevious hrows hitems⟩

end RookieTop.CpuJoin
