import RookieTop.ProcDir
import RookieTop.Tables.BinarySearch
import RookieTop.Tables.TopList
import Mathlib.Algebra.Order.Field.Rat

/-! CPU ticks of every process from `/proc/<pid>/stat`, and each process's share
of the machine between two scans. -/
namespace RookieTop.ProcessCpu

open CLib Trace Sys ProcDir Tables

def procStatLineMax : Nat := 1024
def processCpuNameMax : Nat := 64
def uint64Max : UInt64 := 18446744073709551615

structure ProcessCpuStat where
  pid : Int
  name : Bytes
  ticks : UInt64
  starttime : UInt64
  deriving DecidableEq, Repr

structure ProcessCpuCounter where
  pid : Int
  ticks : UInt64
  starttime : UInt64
  deriving DecidableEq, Repr

structure ProcessCpuInfo where
  pid : Int
  name : Bytes
  cpuPercent : ℚ
  starttime : UInt64
  deriving DecidableEq

def parseUintToken (token : Bytes) : Option UInt64 :=
  if token.length = 0 ∨ 32 ≤ token.length then none
  else
    let c := strtoull token
    if c.range ∨ c.rest ≠ [] then none else some c.value

/-- Skips white space and cuts off the token behind it, if there is one. -/
def nextToken (cursor : Bytes) : Option (Bytes × Bytes) :=
  let cursor := cursor.dropWhile isspace
  if cursor = [] then none
  else some (cursor.takeWhile fun b => !isspace b, cursor.dropWhile fun b => !isspace b)

structure StatFields where
  utime : Option UInt64
  stime : Option UInt64
  starttime : Option UInt64
  deriving DecidableEq, Repr

def scanField (field : Nat) (token : Bytes) (found : StatFields) : Option StatFields :=
  if field = 14 then (parseUintToken token).map fun v => { found with utime := some v }
  else if field = 15 then (parseUintToken token).map fun v => { found with stime := some v }
  else if field = 22 then (parseUintToken token).map fun v => { found with starttime := some v }
  else some found

/-- The loop over `n` fields, from number `field` on. -/
def scanFields : Nat → Nat → Bytes → StatFields → Option StatFields
  | 0, _, _, found => some found
  | n + 1, field, cursor, found =>
    (nextToken cursor).bind fun (token, cursor) =>
      (scanField field token found).bind fun found => scanFields n (field + 1) cursor found

/-- The record, where all three numbers were found and the ticks fit their sum. -/
def statOf (pid : Int) (name : Bytes) : Option StatFields → Option ProcessCpuStat
  | some ⟨some utime, some stime, some starttime⟩ =>
    if uint64Max - utime < stime then none else some ⟨pid, name, utime + stime, starttime⟩
  | _ => none

def processCpuParseStat (line : Bytes) : Option ProcessCpuStat :=
  let pid := strtol line
  if pid.range ∨ pid.rest.length = line.length ∨ pid.value ≤ 0 ∨ intMax < pid.value then none
  else
    match strchr pid.rest 40, strrchr line 41 with
    | some offset, some closing =>
      let opening := line.length - pid.rest.length + offset
      if closing ≤ opening + 1 then none
      else
        let nameLen := closing - opening - 1
        if processCpuNameMax ≤ nameLen then none
        else
          statOf pid.value ((line.drop (opening + 1)).take nameLen)
            (scanFields 20 3 (line.drop (closing + 1)) ⟨none, none, none⟩)
    | _, _ => none

variable (env : Env)

def readProcessStat (pid : Int) : Calls (Option ProcessCpuStat) := do
  match ← readLine env (.pidStat pid) procStatLineMax with
  | none => return none
  | some line => return processCpuParseStat line

def parseStatStream (stream : Stream) : Option ProcessCpuStat :=
  (fgets procStatLineMax stream).bind fun line => processCpuParseStat (cstr line.1)

theorem readProcessStat_value (pid : Int) (n : Nat) :
    (readProcessStat env pid).value n =
      if env.opens n (.pidStat pid) ∧ env.closes (n + 2) then
        parseStatStream (env.content n (n + 1) (.pidStat pid))
      else none := by
  unfold readProcessStat parseStatStream
  simp only [Calls.value_bind, readLine_value]
  by_cases h : env.opens n (.pidStat pid) ∧ env.closes (n + 2)
  · simp only [if_pos h]
    cases fgets procStatLineMax (env.content n (n + 1) (.pidStat pid)) <;> simp
  · simp only [if_neg h, Calls.value_pure]

/-- `(left->pid > right->pid) - (left->pid < right->pid)`. -/
def comparePids (left right : Int) : Int :=
  (if right < left then 1 else 0) - (if left < right then 1 else 0)

def compareCounter (left right : ProcessCpuCounter) : Int := comparePids left.pid right.pid

def compareInfoPid (left right : ProcessCpuInfo) : Int := comparePids left.pid right.pid

def readCounter (pid : Int) : Calls (Option ProcessCpuCounter) := do
  return (← readProcessStat env pid).map fun stat => ⟨stat.pid, stat.ticks, stat.starttime⟩

/-- A snapshot is its counters sorted by pid; a counter is 24 bytes. -/
def processCpuSnapshotTake : Calls (Option (List ProcessCpuCounter)) := do
  return (← scanProc env 2 24 (readCounter env)).map (env.qsort.sort compareCounter)

def findPrevious (snapshot : List ProcessCpuCounter) (pid : Int) : Option ProcessCpuCounter :=
  binarySearch ProcessCpuCounter.pid snapshot pid

/-- The share of one process, 0 unless its counter in the snapshot is of the same instance and
did not go back, then the exact quotient. -/
def cpuShare (previous : List ProcessCpuCounter) (systemDeltaTicks : UInt64) (pid : Int)
    (current : ProcessCpuStat) : ℚ :=
  match findPrevious previous pid with
  | none => 0
  | some old =>
    if old.starttime = current.starttime ∧ old.ticks ≤ current.ticks then
      (current.ticks - old.ticks).toNat * 100 / systemDeltaTicks.toNat
    else 0

def readInfo (previous : List ProcessCpuCounter) (systemDeltaTicks : UInt64) (pid : Int) :
    Calls (Option ProcessCpuInfo) := do
  return (← readProcessStat env pid).map fun current =>
    { pid := current.pid
      name := current.name
      cpuPercent := cpuShare previous systemDeltaTicks pid current
      starttime := current.starttime }

/-- An entry is 88 bytes. -/
def processCpuAllSince (previous : List ProcessCpuCounter) (systemDeltaTicks : UInt64) :
    Calls (Option (List ProcessCpuInfo)) :=
  if systemDeltaTicks = 0 then pure none
  else do
    return (← scanProc env 1 88 (readInfo env previous systemDeltaTicks)).map
      (env.qsort.sort compareInfoPid)

/-- The entries with a positive share, best first, and how many were read in all. -/
def processCpuTopSince (previous : List ProcessCpuCounter) (systemDeltaTicks : UInt64)
    (cap : Nat) : Calls (Option (List ProcessCpuInfo × Nat)) :=
  if systemDeltaTicks = 0 ∨ cap = 0 then pure none
  else do
    return (← processCpuAllSince env previous systemDeltaTicks).map fun all =>
      ((all.filter fun info => 0 < info.cpuPercent).foldl
        (insertTop ProcessCpuInfo.cpuPercent cap) [], all.length)

end RookieTop.ProcessCpu
