import RookieTop.CollectOverview
import RookieTop.ProcessList

/-! The rows of the process explorer: the sorting keys, and the sample that joins
the process list with the CPU shares. -/
namespace RookieTop.Explorer

open CLib Trace Sys Tables Cpu ProcessCpu ProcessList CollectOverview

inductive ProcessSort where
  | memory
  | cpu
  | pid
  | name
  deriving DecidableEq, Repr

def comparePid (left right : ProcessRow) : Int := comparePids left.pid right.pid

def compareMemory (left right : ProcessRow) : Int :=
  if left.rssKib < right.rssKib then 1
  else if right.rssKib < left.rssKib then -1
  else comparePid left right

def compareCpu (left right : ProcessRow) : Int :=
  if left.cpuPercent < right.cpuPercent then 1
  else if right.cpuPercent < left.cpuPercent then -1
  else comparePid left right

def compareName (left right : ProcessRow) : Int :=
  let result := strcmp left.name right.name
  if result ≠ 0 then result else comparePid left right

def comparator : ProcessSort → ProcessRow → ProcessRow → Int
  | .cpu => compareCpu
  | .pid => comparePid
  | .name => compareName
  | .memory => compareMemory

variable (env : Env)

def sortProcesses (rows : List ProcessRow) (sort : ProcessSort) : List ProcessRow :=
  if rows.length < 2 then rows else env.qsort.sort (comparator sort) rows

theorem sortProcesses_perm (rows : List ProcessRow) (sort : ProcessSort) :
    (sortProcesses env rows sort).Perm rows := by
  unfold sortProcesses
  split
  · exact List.Perm.refl rows
  · exact env.qsort.perm _ rows

def findCpuInfo (items : List ProcessCpuInfo) (pid : Int) : Option ProcessCpuInfo :=
  binarySearch ProcessCpuInfo.pid items pid

/-- One pass of the loop that joins: the share of the row's own instance, if there is one. -/
def joinShare (items : List ProcessCpuInfo) (row : ProcessRow) : ProcessRow :=
  match findCpuInfo items row.pid with
  | none => row
  | some info =>
    if info.starttime = row.starttime then { row with cpuPercent := info.cpuPercent } else row

theorem joinShare_cases (items : List ProcessCpuInfo) (row : ProcessRow) :
    joinShare items row = row ∨ ∃ info ∈ items, info.pid = row.pid ∧
      info.starttime = row.starttime ∧
      joinShare items row = { row with cpuPercent := info.cpuPercent } := by
  unfold joinShare
  cases hfind : findCpuInfo items row.pid with
  | none => exact Or.inl rfl
  | some info =>
    obtain ⟨hmem, hpid⟩ := binarySearch_mem hfind
    dsimp only
    split_ifs with hsame
    · exact Or.inr ⟨info, hmem, hpid, hsame, rfl⟩
    · exact Or.inl rfl

theorem joinShare_keeps (items : List ProcessCpuInfo) (row : ProcessRow) :
    ∃ share, joinShare items row = { row with cpuPercent := share } := by
  rcases joinShare_cases items row with hsame | ⟨info, -, -, -, hshare⟩
  · exact ⟨row.cpuPercent, hsame⟩
  · exact ⟨info.cpuPercent, hshare⟩

theorem joinShare_pid (items : List ProcessCpuInfo) (row : ProcessRow) :
    (joinShare items row).pid = row.pid := by
  obtain ⟨share, hshare⟩ := joinShare_keeps items row
  rw [hshare]

theorem joinShare_starttime (items : List ProcessCpuInfo) (row : ProcessRow) :
    (joinShare items row).starttime = row.starttime := by
  obtain ⟨share, hshare⟩ := joinShare_keeps items row
  rw [hshare]

/-- The snapshot from before the wait, and the system's ticks up to the second
reading of `/proc/stat`; `none` is `cpu_sample_ok == 0`. -/
def sampleWindow : Calls (Option (List ProcessCpuCounter × UInt64)) := do
  match ← cpuRead env with
  | none => return none
  | some cpuPrev =>
    match ← processCpuSnapshotTake env with
    | none => return none
    | some previous =>
      if ← waitNs env then
        match ← cpuRead env with
        | none => return none
        | some cpuCurr => return (cpuTotalDelta cpuPrev cpuCurr).map fun ticks => (previous, ticks)
      else return none

def sampleProcessRows : Calls (Option (List ProcessRow)) := do
  let window ← sampleWindow env
  match ← processListRead env with
  | none => return none
  | some rows =>
    match window with
    | none => return some rows
    | some (previous, systemDeltaTicks) =>
      match ← processCpuAllSince env previous systemDeltaTicks with
      | none => return some rows
      | some items => return some (rows.map (joinShare items))

def listedAt (n : Nat) : Nat := (sampleWindow env).after n

def scannedAt (n : Nat) : Nat := (processListRead env).after (listedAt env n)

theorem sampleProcessRows_value (n : Nat) :
    (sampleProcessRows env).value n =
      ((processListRead env).value (listedAt env n)).map fun rows =>
        match ((sampleWindow env).value n).bind fun window =>
          (processCpuAllSince env window.1 window.2).value (scannedAt env n) with
        | none => rows
        | some items => rows.map (joinShare items) := by
  unfold sampleProcessRows scannedAt listedAt
  simp only [Calls.value_bind]
  cases (processListRead env).value ((sampleWindow env).after n) with
  | none => rfl
  | some rows =>
    cases (sampleWindow env).value n with
    | none => rfl
    | some window =>
      simp only [Option.map_some, Option.bind_some, Calls.value_bind]
      cases (processCpuAllSince env window.1 window.2).value
          ((processListRead env).after ((sampleWindow env).after n)) <;> rfl

theorem sampleProcessRows_cases {n : Nat} {rows : List ProcessRow}
    (h : (sampleProcessRows env).value n = some rows) :
    ∃ listed, (processListRead env).value (listedAt env n) = some listed ∧
      (rows = listed ∨ ∃ previous ticks items,
        (sampleWindow env).value n = some (previous, ticks) ∧
        (processCpuAllSince env previous ticks).value (scannedAt env n) = some items ∧
        rows = listed.map (joinShare items)) := by
  rw [sampleProcessRows_value] at h
  obtain ⟨listed, hlisted, hrows⟩ := Option.map_eq_some_iff.mp h
  refine ⟨listed, hlisted, ?_⟩
  cases hitems : ((sampleWindow env).value n).bind fun window =>
      (processCpuAllSince env window.1 window.2).value (scannedAt env n) with
  | none =>
    rw [hitems] at hrows
    exact Or.inl hrows.symm
  | some items =>
    rw [hitems] at hrows
    obtain ⟨⟨previous, ticks⟩, hwindow, hscan⟩ := Option.bind_eq_some_iff.mp hitems
    exact Or.inr ⟨previous, ticks, items, hwindow, hscan, hrows.symm⟩

theorem scanned_after {n : Nat} {previous : List ProcessCpuCounter} {ticks : UInt64}
    {listed : List ProcessRow} (hlisted : (processListRead env).value (listedAt env n) = some listed)
    (hwindow : (sampleWindow env).value n = some (previous, ticks)) :
    (processCpuAllSince env previous ticks).after (scannedAt env n) =
      (sampleProcessRows env).after n := by
  unfold sampleProcessRows scannedAt
  unfold listedAt at hlisted ⊢
  simp only [Calls.after_bind, hlisted, hwindow]
  cases (processCpuAllSince env previous ticks).value
      ((processListRead env).after ((sampleWindow env).after n)) <;>
    simp only [Calls.after_pure]

end RookieTop.Explorer
