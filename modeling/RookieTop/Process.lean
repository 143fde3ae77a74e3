import RookieTop.CLib.Scan
import RookieTop.ProcDir
import RookieTop.Tables.TopList
import Mathlib.Data.List.DropRight

/-! The overview's list of the largest processes, from `/proc/<pid>/status`. -/
namespace RookieTop.Process

open CLib Trace Sys ProcDir Tables

def statusLineMax : Nat := 256
def processNameMax : Nat := 64

structure ProcessInfo where
  pid : Int
  name : Bytes
  rssKib : UInt64
  deriving DecidableEq, Repr

/-- `parse_name` and `parse_rss` return 0, -1 or 1: another key, a bad value, or
the value of the key. -/
inductive Parsed (α : Type) where
  | other
  | malformed
  | value (v : α)
  deriving DecidableEq, Repr

def keyName : Bytes := ascii "Name:"
def keyVmRss : Bytes := ascii "VmRSS:"
def unitKb : Bytes := ascii "kB"
def rssFormat : List Directive := [.space, .u64, .space, .word 2, .space, .char]

def parseName (line : Bytes) (cap : Nat) : Parsed Bytes :=
  if startsWith line keyName then
    let start := (line.drop 5).dropWhile isblank
    let name := (start.take (strcspn start [13, 10])).rdropWhile isspace
    if name.length = 0 ∨ cap ≤ name.length then .malformed else .value name
  else .other

def parseRss (line : Bytes) : Parsed UInt64 :=
  if startsWith line keyVmRss then
    match sscanf rssFormat (line.drop 6) with
    | [.u64 v, .word unit] => if unit = unitKb then .value v else .malformed
    | _ => .malformed
  else .other

def statusStep (found : ProcessInfo × Bool) (line : Bytes) : Option (ProcessInfo × Bool) :=
  match parseName line processNameMax with
  | .malformed => none
  | .value name => some ({ found.1 with name := name }, true)
  | .other =>
    match parseRss line with
    | .malformed => none
    | .value rss => some ({ found.1 with rssKib := rss }, found.2)
    | .other => some found

def processParseStatus (stream : Stream) (pid : Int) : Option ProcessInfo :=
  if pid ≤ 0 then none
  else
    match ((fgetsAll statusLineMax stream).map cstr).foldlM statusStep (⟨pid, [], 0⟩, false) with
    | none => none
    | some (process, foundName) => if stream.error ∨ !foundName then none else some process

variable (env : Env)

def readProcess (pid : Int) : Calls (Option ProcessInfo) := do
  match ← readFile env (.pidStatus pid) with
  | none => return none
  | some (stream, closed) => return if closed then processParseStatus stream pid else none

def topLoop (cap : Nat) : List Bytes → List ProcessInfo × Nat → Calls (List ProcessInfo × Nat)
  | [], top => pure top
  | name :: names, top =>
    match parsePid name with
    | none => topLoop cap names top
    | some pid => do
      match ← readProcess env pid with
      | none => topLoop cap names top
      | some process =>
        topLoop cap names (insertTop ProcessInfo.rssKib cap top.1 process, top.2 + 1)

def processTopMemory (cap : Nat) : Calls (Option (List ProcessInfo × Nat)) :=
  if cap = 0 then pure none
  else do
    match ← Calls.call env.directory with
    | none => return none
    | some dir =>
      let top ← topLoop env cap dir.names ([], 0)
      return if dir.error then none else if dir.closes then some top else none

def scanned : List Bytes → Calls (List ProcessInfo)
  | [] => pure []
  | name :: names =>
    match parsePid name with
    | none => scanned names
    | some pid => do
      match ← readProcess env pid with
      | none => scanned names
      | some process => return process :: (← scanned names)

theorem topLoop_value (cap : Nat) (names : List Bytes) (top : List ProcessInfo × Nat) (n : Nat) :
    (topLoop env cap names top).value n =
      (((scanned env names).value n).foldl (insertTop ProcessInfo.rssKib cap) top.1,
        top.2 + ((scanned env names).value n).length) := by
  induction names generalizing top n with
  | nil => rfl
  | cons name names ih =>
    unfold topLoop scanned
    cases parsePid name with
    | none => exact ih top n
    | some pid =>
      simp only [Calls.value_bind]
      cases (readProcess env pid).value n with
      | none => exact ih top _
      | some process =>
        simp only [Calls.value_bind, Calls.value_pure, List.foldl_cons, List.length_cons]
        rw [ih, Nat.add_right_comm, Nat.add_assoc]

theorem statusStep_pid {found found' : ProcessInfo × Bool} {line : Bytes}
    (h : statusStep found line = some found') : found'.1.pid = found.1.pid := by
  unfold statusStep at h
  split at h
  · cases h
  · cases Option.some.inj h
    rfl
  · split at h
    · cases h
    · cases Option.some.inj h
      rfl
    · cases Option.some.inj h
      rfl

theorem processParseStatus_pid {stream : Stream} {pid : Int} {process : ProcessInfo}
    (h : processParseStatus stream pid = some process) : process.pid = pid := by
  unfold processParseStatus at h
  split_ifs at h
  split at h
  · cases h
  · rename_i hfold
    split_ifs at h
    cases Option.some.inj h
    have hloop := @foldlM_keeps _ _ statusStep (fun found => found.1.pid = pid)
      fun hstep hfound => (statusStep_pid hstep).trans hfound
    exact hloop hfold rfl

theorem readProcess_pid {pid : Int} {n : Nat} {process : ProcessInfo}
    (h : (readProcess env pid).value n = some process) : process.pid = pid := by
  unfold readProcess at h
  simp only [Calls.value_bind, readFile_value] at h
  split_ifs at h
  · simp only [Calls.value_pure] at h
    split_ifs at h
    exact processParseStatus_pid h
  · cases h

theorem scanned_pids (names : List Bytes) (n : Nat) :
    (((scanned env names).value n).map ProcessInfo.pid).Sublist (names.filterMap parsePid) := by
  induction names generalizing n with
  | nil => exact List.Sublist.slnil
  | cons name names ih =>
    unfold scanned
    cases hname : parsePid name with
    | none =>
      rw [List.filterMap_cons_none hname]
      exact ih n
    | some pid =>
      rw [List.filterMap_cons_some hname]
      simp only [Calls.value_bind]
      cases hread : (readProcess env pid).value n with
      | none => exact (ih _).cons _
      | some process =>
        simp only [Calls.value_bind, Calls.value_pure, List.map_cons, readProcess_pid env hread]
        exact (ih _).cons_cons _

end RookieTop.Process
