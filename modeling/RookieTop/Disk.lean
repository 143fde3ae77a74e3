import RookieTop.Sys
import Mathlib.Algebra.Order.Field.Rat

/-! Root filesystem capacity through `statvfs`. -/
namespace RookieTop.Disk

open Trace Sys

structure DiskSample where
  totalBytes : UInt64
  availableBytes : UInt64
  deriving DecidableEq, Repr

def blocksToBytes (blocks blockSize : UInt64) : Option UInt64 :=
  if blockSize = 0 ∨ (blocks ≠ 0 ∧ UInt64.ofNat (2 ^ 64 - 1) / blocks < blockSize) then none
  else some (blocks * blockSize)

def diskSample (fs : Statvfs) : Option DiskSample := do
  let blockSize := if fs.frsize ≠ 0 then fs.frsize else fs.bsize
  let total ← blocksToBytes fs.blocks blockSize
  let available ← blocksToBytes fs.bavail blockSize
  if total = 0 ∨ total < available then none else some ⟨total, available⟩

def diskReadRoot (env : Env) : Calls (Option DiskSample) := do
  match ← Calls.call env.statvfs with
  | none => return none
  | some fs => return diskSample fs

/-- The percentage, as the exact quotient where the source divides doubles, and the used bytes. -/
def diskUsage (sample : DiskSample) : Option (ℚ × UInt64) :=
  if sample.totalBytes = 0 ∨ sample.totalBytes < sample.availableBytes then none
  else
    let used := sample.totalBytes - sample.availableBytes
    some (used.toNat * 100 / sample.totalBytes.toNat, used)

end RookieTop.Disk
