import RookieTop.CLib.Numeral
import Mathlib.Algebra.Order.Field.Rat
import Mathlib.Tactic.Linarith

/-! The conversions of `printf` for integers and for one decimal. A double is the
exact rational it stands for, and ties go to the even digit. -/
namespace CLib

def formatInt (n : Int) : Bytes :=
  if n < 0 then ascii "-" ++ decimal n.natAbs else decimal n.natAbs

def roundHalfEven (q : ℚ) : Int :=
  let low := q.floor
  if q - low < 1 / 2 then low
  else if 1 / 2 < q - low then low + 1
  else if low % 2 = 0 then low
  else low + 1

/-- `%.1f`. -/
def formatTenths (q : ℚ) : Bytes :=
  let tenths := (roundHalfEven (|q| * 10)).natAbs
  (if q < 0 then ascii "-" else []) ++
    decimal (tenths / 10) ++ ascii "." ++ decimal (tenths % 10)

def formatHundredths (q : ℚ) : Bytes :=
  let hundredths := (roundHalfEven (|q| * 100)).natAbs
  (if q < 0 then ascii "-" else []) ++
    decimal (hundredths / 100) ++ ascii "." ++
    (decimal (hundredths % 100 / 10) ++ decimal (hundredths % 10))

example : formatTenths (1 / 4) = ascii "0.2" := by decide +kernel

theorem roundHalfEven_nonneg {q : ℚ} (h : 0 ≤ q) : 0 ≤ roundHalfEven q := by
  have hfloor : 0 ≤ q.floor := Rat.le_floor_iff.mpr (by simpa using h)
  unfold roundHalfEven
  dsimp only
  split_ifs <;> omega

theorem roundHalfEven_le {q : ℚ} {n : Nat} (h : q < n) : roundHalfEven q ≤ n := by
  have hfloor : q.floor < (n : Int) := Rat.floor_lt_iff.mpr (by simpa using h)
  unfold roundHalfEven
  dsimp only
  split_ifs <;> omega

theorem formatTenths_length_le {q : ℚ} {k : Nat} (hq : 0 ≤ q) (h : q < 10 ^ k) :
    (formatTenths q).length ≤ k + 3 := by
  have hscaled : q * 10 < (10 ^ (k + 1) : Nat) := by
    rw [pow_succ]
    push_cast
    linarith
  have hround := roundHalfEven_le hscaled
  have hnonneg := roundHalfEven_nonneg (show 0 ≤ q * 10 by linarith)
  have hwhole : (decimal ((roundHalfEven (q * 10)).natAbs / 10)).length ≤ k + 1 := by
    apply decimal_length_le (Nat.succ_pos k)
    rw [pow_succ] at hround ⊢
    have hpos := Nat.pow_pos (show 0 < 10 by decide) (n := k)
    omega
  have htenth : (decimal ((roundHalfEven (q * 10)).natAbs % 10)).length ≤ 1 :=
    decimal_length_le Nat.one_pos (Nat.mod_lt _ (by decide))
  unfold formatTenths
  dsimp only
  rw [abs_of_nonneg hq, if_neg (not_lt.mpr hq)]
  simp only [List.nil_append, List.length_append]
  have hpoint : (ascii ".").length = 1 := by decide
  omega

def padLeft (width : Nat) (text : Bytes) : Bytes :=
  List.replicate (width - text.length) 32 ++ text

/-- `%0*d`, where the number has no sign or fills the width. -/
def padZero (width : Nat) (digits : Bytes) : Bytes :=
  List.replicate (width - digits.length) 48 ++ digits

def padRight (width : Nat) (text : Bytes) : Bytes :=
  text ++ List.replicate (width - text.length) 32

end CLib
