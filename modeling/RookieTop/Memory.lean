import RookieTop.CLib.Scan
import RookieTop.Sys
import Mathlib.Algebra.Order.Field.Rat

/-! `/proc/meminfo`: four keys in any order, in kB. -/
namespace RookieTop.Memory

open CLib Trace Sys

def meminfoLineMax : Nat := 256

structure MemorySample where
  totalKib : UInt64
  availableKib : UInt64
  swapTotalKib : UInt64
  swapFreeKib : UInt64
  deriving DecidableEq, Repr

/-- `read_kib` returns 0, -1 or 1: another key, a bad value, or the value of the key. -/
inductive KibLine where
  | other
  | malformed
  | value (v : UInt64)
  deriving DecidableEq, Repr

def kibFormat : List Directive := [.space, .u64, .space, .word 2, .space, .char]

def readKib (line name : Bytes) : KibLine :=
  if startsWith line (name ++ ascii ":") then
    match sscanf kibFormat (line.drop (name.length + 1)) with
    | [.u64 v, .word unit] => if unit = ascii "kB" then .value v else .malformed
    | _ => .malformed
  else .other

def foundTotal : Nat := 1
def foundAvailable : Nat := 2
def foundSwapTotal : Nat := 4
def foundSwapFree : Nat := 8
def foundAll : Nat := 15

/-- The loop over the lines, with the values and the mask of the keys found so
far. The last component tells whether it ran to the end of the file. -/
def memoryLoop : List Bytes → MemorySample → Nat → Option (MemorySample × Nat × Bool)
  | [], sample, found => some (sample, found, true)
  | line :: lines, sample, found =>
    match readKib line (ascii "MemTotal") with
    | .malformed => none
    | .value v => memoryLoop lines { sample with totalKib := v } (found ||| foundTotal)
    | .other =>
      match readKib line (ascii "MemAvailable") with
      | .malformed => none
      | .value v => memoryLoop lines { sample with availableKib := v } (found ||| foundAvailable)
      | .other =>
        match readKib line (ascii "SwapTotal") with
        | .malformed => none
        | .value v => memoryLoop lines { sample with swapTotalKib := v } (found ||| foundSwapTotal)
        | .other =>
          match readKib line (ascii "SwapFree") with
          | .malformed => none
          | .value v =>
            let sample := { sample with swapFreeKib := v }
            let found := found ||| foundSwapFree
            if found = foundAll then some (sample, found, false)
            else memoryLoop lines sample found
          | .other =>
            if found = foundAll then some (sample, found, false)
            else memoryLoop lines sample found

def memoryParse (stream : Stream) : Option MemorySample :=
  match memoryLoop ((fgetsAll meminfoLineMax stream).map cstr) ⟨0, 0, 0, 0⟩ 0 with
  | none => none
  | some (sample, found, atEnd) =>
    if (atEnd ∧ stream.error) ∨ found ≠ foundAll ∨ sample.totalKib = 0 ∨
        sample.totalKib < sample.availableKib ∨ sample.swapTotalKib < sample.swapFreeKib then none
    else some sample

def memoryRead (env : Env) : Calls (Option MemorySample) := do
  match ← readFile env .meminfo with
  | none => return none
  | some (stream, closed) => return if closed then memoryParse stream else none

structure MemoryUsage where
  percent : ℚ
  usedKib : UInt64
  swapUsedKib : UInt64
  deriving DecidableEq

/-- The percentage is the exact quotient, where the source divides doubles. -/
def memoryUsage (sample : MemorySample) : Option MemoryUsage :=
  if sample.totalKib = 0 ∨ sample.totalKib < sample.availableKib ∨
      sample.swapTotalKib < sample.swapFreeKib then none
  else
    let used := sample.totalKib - sample.availableKib
    some
      { percent := used.toNat * 100 / sample.totalKib.toNat
        usedKib := used
        swapUsedKib := sample.swapTotalKib - sample.swapFreeKib }

theorem memoryUsage_of_memoryParse {stream : Stream} {sample : MemorySample}
    (h : memoryParse stream = some sample) : (memoryUsage sample).isSome := by
  unfold memoryParse at h
  split at h
  · simp at h
  · split at h
    · simp at h
    · rename_i hvalid
      cases Option.some.inj h
      simp only [not_or] at hvalid
      simp [memoryUsage, hvalid]

end RookieTop.Memory
