import RookieTop.CLib.Stdio
import RookieTop.CLib.Stdlib
import RookieTop.Trace.Calls
import Mathlib.Data.Rat.Defs

/-! What RookieTop asks of Linux. An `Env` answers each system call by its time,
without any promise about the answers: files may open and fail to read, change
between two readings and disappear, signals may be refused, and bytes may reach
the terminal at any moment. -/
namespace RookieTop.Sys

open CLib Trace

inductive Path where
  | stat
  | meminfo
  | netDev
  | pidStat (pid : Int)
  | pidStatus (pid : Int)
  | pidCmdline (pid : Int)
  | uptime
  | loadavg
  /-- `temp` and `type` of an entry of the thermal directory. -/
  | thermalTemp (zone : Bytes)
  | thermalType (zone : Bytes)
  deriving DecidableEq, Repr

/-- The entries that one scan of a directory goes through, whether `readdir` then
fails instead of ending, and whether `closedir` succeeds. -/
structure Directory where
  names : List Bytes
  error : Bool
  closes : Bool

/-- Why a `poll` or `read` gives nothing although it might have. -/
inductive Fault where
  | interrupted
  | failed
  deriving DecidableEq, Repr

inductive Errno where
  | esrch
  | eperm
  | other
  deriving DecidableEq, Repr

structure Statvfs where
  bsize : UInt64
  frsize : UInt64
  blocks : UInt64
  bavail : UInt64

structure Timespec where
  sec : Int
  nsec : Int

structure TerminalSize where
  rows : Int
  cols : Int

structure Env where
  self : Int
  qsort : Qsort
  opens : Nat → Path → Bool
  /-- The stream of a file opened at the first time and read at the second. -/
  content : Nat → Nat → Path → Stream
  closes : Nat → Bool
  directory : Nat → Option Directory
  thermal : Nat → Option Directory
  /-- The number that `%lf` reads at the head of a text, and what it leaves there. -/
  scanDouble : Bytes → Option (ℚ × Bytes)
  allocates : Nat → Bool
  sleeps : Nat → Bool
  clock : Nat → Option Timespec
  statvfs : Nat → Option Statvfs
  hostname : Nat → Option Bytes
  uname : Nat → Option Bytes
  processors : Nat → Int
  window : Nat → TerminalSize
  stopped : Nat → Bool
  /-- `none` where `kill` returns 0. -/
  kills : Nat → Int → Int → Option Errno
  /-- The bytes that reach the terminal, in order, each with the time it does. -/
  typed : Nat → Option (Nat × UInt8)
  pollFault : Nat → Option Fault
  readFault : Nat → Option Fault

def sigkill : Int := 9
def sigterm : Int := 15

def Env.idle : Env where
  self := 1
  qsort := Qsort.insertion
  opens _ _ := false
  content _ _ _ := ⟨[], false⟩
  closes _ := true
  directory _ := some ⟨[], false, true⟩
  thermal _ := none
  scanDouble _ := none
  allocates _ := true
  sleeps _ := true
  clock n := some ⟨n, 0⟩
  statvfs _ := some ⟨1, 1, 1, 1⟩
  hostname _ := none
  uname _ := none
  processors _ := 1
  window _ := ⟨24, 80⟩
  stopped _ := false
  kills _ _ _ := some .esrch
  typed _ := none
  pollFault _ := none
  readFault _ := none

variable (env : Env)

/-- `fopen`, reading to the end and `fclose`: the stream, and whether it closed. -/
def readFile (path : Path) : Calls (Option (Stream × Bool)) := do
  match ← Calls.call fun n => if env.opens n path then some n else none with
  | none => return none
  | some opened =>
    let stream ← Calls.call fun n => env.content opened n path
    let closed ← Calls.call env.closes
    return some (stream, closed)

theorem readFile_value (path : Path) (n : Nat) :
    (readFile env path).value n =
      if env.opens n path then some (env.content n (n + 1) path, env.closes (n + 2)) else none := by
  by_cases h : env.opens n path <;> simp [readFile, h]

theorem readFile_after (path : Path) (n : Nat) :
    (readFile env path).after n = if env.opens n path then n + 3 else n + 1 := by
  by_cases h : env.opens n path <;> simp [readFile, h]

def readLine (path : Path) (size : Nat) : Calls (Option Bytes) := do
  match ← readFile env path with
  | none => return none
  | some (stream, closed) =>
    match fgets size stream with
    | none => return none
    | some (line, _) => return if closed then some (cstr line) else none

theorem readLine_value (path : Path) (size n : Nat) :
    (readLine env path size).value n =
      if env.opens n path ∧ env.closes (n + 2) then
        (fgets size (env.content n (n + 1) path)).map fun line => cstr line.1
      else none := by
  unfold readLine
  simp only [Calls.value_bind, readFile_value]
  cases env.opens n path with
  | false => simp
  | true =>
    simp only [if_true, true_and]
    cases fgets size (env.content n (n + 1) path) with
    | none => simp
    | some line => cases env.closes (n + 2) <;> simp

theorem readLine_after (path : Path) (size n : Nat) :
    (readLine env path size).after n = if env.opens n path then n + 3 else n + 1 := by
  unfold readLine
  simp only [Calls.after_bind, readFile_value, readFile_after]
  cases env.opens n path with
  | false => simp
  | true =>
    simp only [if_true]
    cases fgets size (env.content n (n + 1) path) <;> simp

end RookieTop.Sys
