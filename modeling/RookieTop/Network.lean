import RookieTop.CLib.Scan
import RookieTop.Sys
import Mathlib.Algebra.Order.Field.Rat
import Mathlib.Data.List.DropRight

/-! `/proc/net/dev`: one line for each interface, summed over all but the loopback. -/
namespace RookieTop.Network

open CLib Trace Sys

def netLineMax : Nat := 512
def interfaceNameMax : Nat := 64

structure NetworkSample where
  rxBytes : UInt64
  txBytes : UInt64
  deriving DecidableEq, Repr

structure NetworkLine where
  name : Bytes
  rxBytes : UInt64
  txBytes : UInt64
  deriving DecidableEq, Repr

def field (fields : List Scanned) (i : Nat) : UInt64 :=
  match fields[i]? with
  | some (.u64 v) => v
  | _ => 0

def networkParseLine (line : Bytes) (nameCap : Nat) : Option NetworkLine :=
  match strchr line 58 with
  | none => none
  | some colon =>
    let name := ((line.take colon).dropWhile isblank).rdropWhile isblank
    if name.length = 0 ∨ nameCap ≤ name.length then none
    else
      let fields := sscanf (u64Fields 16) (line.drop (colon + 1))
      if fields.length < 9 then none
      else some ⟨name, field fields 0, field fields 8⟩

/-- Adds a line to the running sums, unless one of them would pass `UINT64_MAX`. -/
def addLine (sample : NetworkSample) (line : NetworkLine) : Option NetworkSample :=
  if UInt64.ofNat (2 ^ 64 - 1) - sample.rxBytes < line.rxBytes ∨
      UInt64.ofNat (2 ^ 64 - 1) - sample.txBytes < line.txBytes then none
  else some ⟨sample.rxBytes + line.rxBytes, sample.txBytes + line.txBytes⟩

def networkStep (sample : NetworkSample) (line : Bytes) : Option NetworkSample :=
  match networkParseLine line interfaceNameMax with
  | none => some sample
  | some parsed => if parsed.name = ascii "lo" then some sample else addLine sample parsed

def networkLoop (lines : List Bytes) (sample : NetworkSample) : Option NetworkSample :=
  lines.foldlM networkStep sample

/-- `network_read` after `fopen`, up to `fclose`. -/
def networkParse (stream : Stream) : Option NetworkSample :=
  match networkLoop ((fgetsAll netLineMax stream).map cstr) ⟨0, 0⟩ with
  | none => none
  | some sample => if stream.error then none else some sample

def networkRead (env : Env) : Calls (Option NetworkSample) := do
  match ← readFile env .netDev with
  | none => return none
  | some (stream, closed) => return if closed then networkParse stream else none

/-- Received and sent bytes per second, as exact quotients where the source divides doubles. -/
def networkRate (prev curr : NetworkSample) (seconds : ℚ) : Option (ℚ × ℚ) :=
  if seconds ≤ 0 ∨ curr.rxBytes < prev.rxBytes ∨ curr.txBytes < prev.txBytes then none
  else some ((curr.rxBytes - prev.rxBytes).toNat / seconds,
    (curr.txBytes - prev.txBytes).toNat / seconds)

theorem addLine_eq (sample : NetworkSample) (line : NetworkLine) :
    addLine sample line =
      if sample.rxBytes.toNat + line.rxBytes.toNat < 2 ^ 64 ∧
          sample.txBytes.toNat + line.txBytes.toNat < 2 ^ 64 then
        some ⟨sample.rxBytes + line.rxBytes, sample.txBytes + line.txBytes⟩
      else none := by
  have hmax : (UInt64.ofNat (2 ^ 64 - 1)).toNat = 2 ^ 64 - 1 := by decide
  have hroom (a b : UInt64) :
      UInt64.ofNat (2 ^ 64 - 1) - a < b ↔ ¬ a.toNat + b.toNat < 2 ^ 64 := by
    have ha := a.toNat_lt
    rw [UInt64.lt_iff_toNat_lt, UInt64.toNat_sub_of_le _ _
      (UInt64.le_iff_toNat_le.mpr (by omega)), hmax]
    omega
  unfold addLine
  simp only [hroom, ← not_and_or, ite_not]

section Totals

def rxTotal (lines : List NetworkLine) : Nat := (lines.map fun l => l.rxBytes.toNat).sum
def txTotal (lines : List NetworkLine) : Nat := (lines.map fun l => l.txBytes.toNat).sum

def counted (lines : List Bytes) : List NetworkLine :=
  (lines.filterMap fun line => networkParseLine line interfaceNameMax).filter
    fun l => l.name ≠ ascii "lo"

theorem rxTotal_cons (line : NetworkLine) (lines : List NetworkLine) :
    rxTotal (line :: lines) = line.rxBytes.toNat + rxTotal lines := by simp [rxTotal]

theorem txTotal_cons (line : NetworkLine) (lines : List NetworkLine) :
    txTotal (line :: lines) = line.txBytes.toNat + txTotal lines := by simp [txTotal]

theorem networkLoop_cons (line : Bytes) (lines : List Bytes) (sample : NetworkSample) :
    networkLoop (line :: lines) sample =
      (networkStep sample line).bind (networkLoop lines) := rfl

/-- The running check is the check of the total, at every prefix and for both
columns at once: the loop fails exactly where a total does not fit. -/
theorem networkLoop_spec (lines : List Bytes) (sample : NetworkSample) :
    match networkLoop lines sample with
    | some total =>
      total.rxBytes.toNat = sample.rxBytes.toNat + rxTotal (counted lines) ∧
        total.txBytes.toNat = sample.txBytes.toNat + txTotal (counted lines)
    | none =>
      2 ^ 64 ≤ sample.rxBytes.toNat + rxTotal (counted lines) ∨
        2 ^ 64 ≤ sample.txBytes.toNat + txTotal (counted lines) := by
  induction lines generalizing sample with
  | nil => simp [networkLoop, counted, rxTotal, txTotal]
  | cons line lines ih =>
    rw [networkLoop_cons]
    cases hparse : networkParseLine line interfaceNameMax with
    | none =>
      have hcounted : counted (line :: lines) = counted lines := by simp [counted, hparse]
      have hstep : networkStep sample line = some sample := by simp [networkStep, hparse]
      rw [hcounted, hstep]
      exact ih sample
    | some parsed =>
      by_cases hlo : parsed.name = ascii "lo"
      · have hcounted : counted (line :: lines) = counted lines := by
          simp [counted, hparse, hlo]
        have hstep : networkStep sample line = some sample := by
          simp [networkStep, hparse, hlo]
        rw [hcounted, hstep]
        exact ih sample
      · have hcounted : counted (line :: lines) = parsed :: counted lines := by
          simp [counted, hparse, hlo]
        have hstep : networkStep sample line = addLine sample parsed := by
          simp [networkStep, hparse, hlo]
        rw [hcounted, rxTotal_cons, txTotal_cons, hstep, addLine_eq]
        by_cases hfits : sample.rxBytes.toNat + parsed.rxBytes.toNat < 2 ^ 64 ∧
            sample.txBytes.toNat + parsed.txBytes.toNat < 2 ^ 64
        · have hih := ih ⟨sample.rxBytes + parsed.rxBytes, sample.txBytes + parsed.txBytes⟩
          simp only [UInt64.toNat_add, Nat.mod_eq_of_lt hfits.1, Nat.mod_eq_of_lt hfits.2,
            Nat.add_assoc] at hih
          rw [if_pos hfits]
          exact hih
        · rw [if_neg hfits]
          dsimp only [Option.bind_none]
          omega

theorem networkParse_eq (stream : Stream) (herror : stream.error = false) :
    networkParse stream =
      let lines := counted ((fgetsAll netLineMax stream).map cstr)
      if rxTotal lines < 2 ^ 64 ∧ txTotal lines < 2 ^ 64 then
        some ⟨UInt64.ofNat (rxTotal lines), UInt64.ofNat (txTotal lines)⟩
      else none := by
  have hspec := networkLoop_spec ((fgetsAll netLineMax stream).map cstr) ⟨0, 0⟩
  simp only [UInt64.toNat_zero, Nat.zero_add] at hspec
  unfold networkParse
  cases hloop : networkLoop ((fgetsAll netLineMax stream).map cstr) ⟨0, 0⟩ with
  | none =>
    simp only [hloop] at hspec
    dsimp only
    rw [if_neg (by omega)]
  | some total =>
    simp only [hloop] at hspec
    obtain ⟨hrx, htx⟩ := hspec
    have hr := total.rxBytes.toNat_lt
    have ht := total.txBytes.toNat_lt
    dsimp only
    rw [herror, if_neg Bool.false_ne_true, ← hrx, ← htx, if_pos ⟨hr, ht⟩]
    simp

end Totals

end RookieTop.Network
