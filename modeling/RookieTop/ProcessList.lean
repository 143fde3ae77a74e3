import RookieTop.CLib.Scan
import RookieTop.ProcessCpu
import Mathlib.Data.List.DropRight

/-! The explorer's rows, from `/proc/<pid>/status` and `/proc/<pid>/stat`, the
details of one process, and the guarded `kill`. -/
namespace RookieTop.ProcessList

open CLib Trace Sys ProcDir ProcessCpu

def lineMaxLocal : Nat := 1024
def processListNameMax : Nat := 64
def processCmdlineMax : Nat := 256

structure ProcessRow where
  pid : Int
  name : Bytes
  state : UInt8
  threads : UInt64
  rssKib : UInt64
  starttime : UInt64
  cpuPercent : ℚ
  deriving DecidableEq

structure ProcessDetail where
  row : ProcessRow
  command : Bytes
  deriving DecidableEq

/-- `parse_status_line` returns -1, 0, or 1 with a field of the row set. -/
inductive StatusLine where
  | malformed
  | ignored
  | parsed (row : ProcessRow)
  deriving DecidableEq

def keyName : Bytes := ascii "Name:"
def keyState : Bytes := ascii "State:"
def keyThreads : Bytes := ascii "Threads:"
def keyVmRss : Bytes := ascii "VmRSS:"
def unitKb : Bytes := ascii "kB"

def countFormat : List Directive := [.space, .u64, .space, .char]
def kibFormat : List Directive := [.space, .u64, .space, .word 2, .space, .char]

def parseName (row : ProcessRow) (value : Bytes) : StatusLine :=
  let value := value.dropWhile isblank
  let len := strcspn value [13, 10]
  if len = 0 ∨ processListNameMax ≤ len then .malformed
  else .parsed { row with name := value.take len }

def parseState (row : ProcessRow) (value : Bytes) : StatusLine :=
  match value.dropWhile isblank with
  | [] => .malformed
  | b :: _ => if b = 10 then .malformed else .parsed { row with state := b }

def parseThreads (row : ProcessRow) (value : Bytes) : StatusLine :=
  match sscanf countFormat value with
  | [.u64 threads] => .parsed { row with threads := threads }
  | _ => .malformed

def parseVmRss (row : ProcessRow) (value : Bytes) : StatusLine :=
  match sscanf kibFormat value with
  | [.u64 rss, .word unit] =>
    if unit = unitKb then .parsed { row with rssKib := rss } else .malformed
  | _ => .malformed

def parseStatusLine (row : ProcessRow) (line : Bytes) : StatusLine :=
  if startsWith line keyName then parseName row (line.drop 5)
  else if startsWith line keyState then parseState row (line.drop 6)
  else if startsWith line keyThreads then parseThreads row (line.drop 8)
  else if startsWith line keyVmRss then parseVmRss row (line.drop 6)
  else .ignored

def statusStep (found : ProcessRow × Bool) (line : Bytes) : Option (ProcessRow × Bool) :=
  match parseStatusLine found.1 line with
  | .malformed => none
  | .ignored => some found
  | .parsed row => some (row, found.2 || startsWith line keyName)

def emptyRow (pid : Int) : ProcessRow :=
  { pid := pid, name := [], state := 63, threads := 0, rssKib := 0, starttime := 0,
    cpuPercent := -1 }

/-- The loop of `read_row` over an open status file, to its `ferror` and
`!found_name` tests. -/
def parseStatus (pid : Int) (stream : Stream) : Option ProcessRow :=
  match ((fgetsAll lineMaxLocal stream).map cstr).foldlM statusStep (emptyRow pid, false) with
  | none => none
  | some (row, foundName) => if stream.error ∨ !foundName then none else some row

variable (env : Env)

def readStarttime (pid : Int) : Calls (Option UInt64) := do
  match ← readLine env (.pidStat pid) lineMaxLocal with
  | none => return none
  | some line => return (processCpuParseStat line).map ProcessCpuStat.starttime

def readRow (pid : Int) : Calls (Option ProcessRow) := do
  match ← readFile env (.pidStatus pid) with
  | none => return none
  | some (stream, closed) =>
    match parseStatus pid stream with
    | none => return none
    | some row =>
      if closed then
        return (← readStarttime env pid).map fun starttime => { row with starttime := starttime }
      else return none

/-- A row is 104 bytes. -/
def processListRead : Calls (Option (List ProcessRow)) :=
  scanProc env 1 104 (readRow env)

/-- `read_cmdline` after `fopen`, up to `fclose`: NULs become spaces, trailing
white space goes, and the text ends at the first line break. -/
def parseCmdline (cap : Nat) (stream : Stream) : Option Bytes :=
  if stream.error ∧ stream.bytes.length < cap - 1 then none
  else
    let text := (stream.bytes.take (cap - 1)).map fun b => if b = 0 then 32 else b
    let text := text.rdropWhile isspace
    some (text.take (strcspn text [13, 10]))

def readCmdline (pid : Int) (cap : Nat) : Calls (Option Bytes) := do
  match ← readFile env (.pidCmdline pid) with
  | none => return none
  | some (stream, closed) => return if closed then parseCmdline cap stream else none

def commandOr (row : ProcessRow) (command : Option Bytes) : Bytes :=
  match command with
  | some (b :: text) => b :: text
  | _ => snprintf processCmdlineMax (ascii "[" ++ row.name ++ ascii "]")

def processDetailRead (pid : Int) : Calls (Option ProcessDetail) :=
  if pid ≤ 0 then pure none
  else do
    match ← readRow env pid with
    | none => return none
    | some row =>
      let command ← readCmdline env pid processCmdlineMax
      return some ⟨row, commandOr row command⟩

inductive SignalResult where
  | ok
  | gone
  | permission
  | reused
  | error
  deriving DecidableEq, Repr

/-- A call of `kill`: when it is made, its arguments, and the start time that was
read from `/proc/<pid>/stat` before it. -/
structure KillCall where
  time : Nat
  pid : Int
  signal : Int
  starttime : UInt64
  deriving DecidableEq, Repr

def killResult : Option Errno → SignalResult
  | none => .ok
  | some .esrch => .gone
  | some .eperm => .permission
  | some .other => .error

def processSendSignal (pid : Int) (starttime : UInt64) (signal : Int) :
    Calls (SignalResult × Option KillCall) :=
  if pid ≤ 0 ∨ starttime = 0 ∨ (signal ≠ sigterm ∧ signal ≠ sigkill) then pure (.error, none)
  else do
    match ← readStarttime env pid with
    | none => return (.gone, none)
    | some current =>
      if current ≠ starttime then return (.reused, none)
      else
        let (time, answer) ← Calls.call fun n => (n, env.kills n pid signal)
        return (killResult answer, some ⟨time, pid, signal, current⟩)

theorem readStarttime_value (pid : Int) (n : Nat) :
    (readStarttime env pid).value n =
      if env.opens n (.pidStat pid) ∧ env.closes (n + 2) then
        (parseStatStream (env.content n (n + 1) (.pidStat pid))).map ProcessCpuStat.starttime
      else none := by
  unfold readStarttime parseStatStream
  simp only [Calls.value_bind, readLine_value, show lineMaxLocal = procStatLineMax from rfl]
  by_cases h : env.opens n (.pidStat pid) ∧ env.closes (n + 2)
  · simp only [if_pos h]
    cases fgets procStatLineMax (env.content n (n + 1) (.pidStat pid)) <;> simp
  · simp only [if_neg h, Calls.value_pure]

theorem readStarttime_after (pid : Int) (n : Nat) :
    (readStarttime env pid).after n = if env.opens n (.pidStat pid) then n + 3 else n + 1 := by
  unfold readStarttime
  simp only [Calls.after_bind, readLine_after]
  cases (readLine env (.pidStat pid) lineMaxLocal).value n <;> simp only [Calls.after_pure]

theorem parseStatusLine_keeps {row row' : ProcessRow} {line : Bytes}
    (h : parseStatusLine row line = .parsed row') :
    row'.pid = row.pid ∧ row'.cpuPercent = row.cpuPercent ∧
      (row'.name = row.name ∨
        startsWith line keyName = true ∧ parseName row (line.drop 5) = .parsed row') := by
  unfold parseStatusLine at h
  split_ifs at h with hname
  · have hparse := h
    simp only [parseName] at h
    split_ifs at h
    cases StatusLine.parsed.inj h
    exact ⟨rfl, rfl, Or.inr ⟨hname, hparse⟩⟩
  · simp only [parseState] at h
    split at h
    · cases h
    · split_ifs at h
      cases StatusLine.parsed.inj h
      exact ⟨rfl, rfl, Or.inl rfl⟩
  · simp only [parseThreads] at h
    split at h
    · cases StatusLine.parsed.inj h
      exact ⟨rfl, rfl, Or.inl rfl⟩
    · cases h
  · simp only [parseVmRss] at h
    split at h
    · split_ifs at h
      cases StatusLine.parsed.inj h
      exact ⟨rfl, rfl, Or.inl rfl⟩
    · cases h

theorem statusStep_keeps {found found' : ProcessRow × Bool} {line : Bytes}
    (h : statusStep found line = some found') :
    found'.1.pid = found.1.pid ∧ found'.1.cpuPercent = found.1.cpuPercent := by
  unfold statusStep at h
  split at h
  · cases h
  · cases Option.some.inj h
    exact ⟨rfl, rfl⟩
  · rename_i hparsed
    cases Option.some.inj h
    obtain ⟨hpid, hpercent, -⟩ := parseStatusLine_keeps hparsed
    exact ⟨hpid, hpercent⟩

theorem parseStatus_keeps {pid : Int} {stream : Stream} {row : ProcessRow}
    (h : parseStatus pid stream = some row) : row.pid = pid ∧ row.cpuPercent = -1 := by
  unfold parseStatus at h
  split at h
  · cases h
  · rename_i hfold
    split_ifs at h
    cases Option.some.inj h
    have hloop := @foldlM_keeps _ _ statusStep
      (fun found => found.1.pid = pid ∧ found.1.cpuPercent = -1) fun hstep hfound => by
        rw [(statusStep_keeps hstep).1, (statusStep_keeps hstep).2]
        exact hfound
    exact hloop hfold ⟨rfl, rfl⟩

theorem parseStatus_pid {pid : Int} {stream : Stream} {row : ProcessRow}
    (h : parseStatus pid stream = some row) : row.pid = pid :=
  (parseStatus_keeps h).1

theorem readRow_some {pid : Int} {n : Nat} {row : ProcessRow}
    (h : (readRow env pid).value n = some row) :
    env.opens n (.pidStatus pid) ∧
      ∃ parsed starttime,
        parseStatus pid (env.content n (n + 1) (.pidStatus pid)) = some parsed ∧
        (readStarttime env pid).value (n + 3) = some starttime ∧
        row = { parsed with starttime := starttime } := by
  unfold readRow at h
  simp only [Calls.value_bind, readFile_value, readFile_after] at h
  by_cases hopen : env.opens n (.pidStatus pid)
  · simp only [hopen, if_true] at h
    refine ⟨hopen, ?_⟩
    cases hparse : parseStatus pid (env.content n (n + 1) (.pidStatus pid)) with
    | none => simp [hparse] at h
    | some parsed =>
      simp only [hparse] at h
      cases hclose : env.closes (n + 2) with
      | false => simp [hclose] at h
      | true =>
        simp only [hclose, if_true, Calls.value_bind, Calls.value_pure,
          Option.map_eq_some_iff] at h
        obtain ⟨starttime, hstart, rfl⟩ := h
        exact ⟨parsed, starttime, rfl, hstart, rfl⟩
  · simp [hopen] at h

theorem readRow_keeps {pid : Int} {n : Nat} {row : ProcessRow}
    (h : (readRow env pid).value n = some row) : row.pid = pid ∧ row.cpuPercent = -1 := by
  obtain ⟨-, parsed, starttime, hparse, -, rfl⟩ := readRow_some env h
  have hkeeps := parseStatus_keeps hparse
  exact hkeeps

theorem processListRead_keeps {n : Nat} {listed : List ProcessRow}
    (h : (processListRead env).value n = some listed) :
    (∃ dir, env.directory n = some dir ∧
      (listed.map ProcessRow.pid).Sublist (dir.names.filterMap parsePid)) ∧
      ∀ row ∈ listed, row.cpuPercent = -1 := by
  obtain ⟨dir, visits, hdir, hvisits, rfl⟩ := scanProc_some h
  constructor
  · refine ⟨dir, hdir, ?_⟩
    rw [← hvisits.pids]
    exact map_records_sublist fun v _ row hrow => (readRow_keeps env hrow).1
  · intro row hrow
    obtain ⟨v, -, hvalue⟩ := mem_records.mp hrow
    exact (readRow_keeps env hvalue).2

theorem processDetailRead_some {pid : Int} {n : Nat} {detail : ProcessDetail}
    (h : (processDetailRead env pid).value n = some detail) :
    (readRow env pid).value n = some detail.row := by
  unfold processDetailRead at h
  split_ifs at h
  · cases h
  · simp only [Calls.value_bind] at h
    cases hrow : (readRow env pid).value n with
    | none => simp [hrow] at h
    | some row =>
      simp only [hrow, Calls.value_bind, Calls.value_pure, Option.some.injEq] at h
      rw [← h]

theorem readStarttime_opens {pid : Int} {n : Nat} {starttime : UInt64}
    (h : (readStarttime env pid).value n = some starttime) :
    env.opens n (.pidStat pid) = true := by
  by_contra hclosed
  rw [readStarttime_value, if_neg fun hopen => hclosed hopen.1] at h
  cases h

theorem readRow_after {pid : Int} {n : Nat} {row : ProcessRow}
    (h : (readRow env pid).value n = some row) : (readRow env pid).after n = n + 6 := by
  obtain ⟨hopen, parsed, starttime, hparse, hstart, -⟩ := readRow_some env h
  unfold readRow at h ⊢
  simp only [Calls.value_bind, Calls.after_bind, readFile_value, readFile_after, hopen, if_true,
    hparse] at h ⊢
  cases hclose : env.closes (n + 2) with
  | false => simp [hclose] at h
  | true =>
    simp only [if_true, Calls.after_bind, Calls.after_pure, readStarttime_after,
      readStarttime_opens env hstart]

theorem processDetailRead_after_le {pid : Int} {n : Nat} {detail : ProcessDetail}
    (h : (processDetailRead env pid).value n = some detail) :
    n + 6 ≤ (processDetailRead env pid).after n := by
  have hrow := processDetailRead_some env h
  have hafter := readRow_after env hrow
  unfold processDetailRead at h ⊢
  split_ifs at h ⊢
  · cases h
  · simp only [Calls.after_bind, hrow, hafter]
    exact Calls.le_after _ _

theorem processDetailRead_pid {pid : Int} {n : Nat} {detail : ProcessDetail}
    (h : (processDetailRead env pid).value n = some detail) : detail.row.pid = pid := by
  exact (readRow_keeps env (processDetailRead_some env h)).1

/-- A `kill` is only called right after the start time has been read again and found
to be the argument. -/
theorem processSendSignal_some {pid : Int} {starttime : UInt64} {signal : Int} {n : Nat}
    {call : KillCall}
    (h : ((processSendSignal env pid starttime signal).value n).2 = some call) :
    call = ⟨(readStarttime env pid).after n, pid, signal, starttime⟩ ∧
      (readStarttime env pid).value n = some starttime := by
  unfold processSendSignal at h
  split_ifs at h
  · cases h
  · simp only [Calls.value_bind] at h
    cases hread : (readStarttime env pid).value n with
    | none => simp [hread] at h
    | some current =>
      simp only [hread] at h
      split_ifs at h with hsame
      · cases h
      · simp only [Calls.value_bind, Calls.value_call, Calls.value_pure,
          Option.some.injEq] at h
        rw [← h, not_not.mp hsame]
        exact ⟨rfl, rfl⟩

end RookieTop.ProcessList
