import RookieTop.CLib.Bytes
import Mathlib.Data.Nat.Digits.Lemmas

/-! Decimal numerals: the `%d` and `%llu` renderings and the conversions of
`strtol` and `strtoull`, with their signs, their clamping and their wrap. -/
namespace CLib

def digit (d : Nat) : UInt8 := UInt8.ofNat (48 + d)

def decimal (n : Nat) : Bytes :=
  if n = 0 then [48] else (Nat.digits 10 n).reverse.map digit

def digitsValue (ds : Bytes) : Nat :=
  ds.foldl (fun v b => 10 * v + (b.toNat - 48)) 0

/-- The subject sequence of the `strto*` functions and what follows it. -/
structure Numeral where
  negative : Bool
  value : Nat
  rest : Bytes
  deriving DecidableEq, Repr

def numeral? (s : Bytes) : Option Numeral :=
  let s := s.dropWhile isspace
  let body := if s.head? = some 43 ∨ s.head? = some 45 then s.tail else s
  let ds := body.takeWhile isdigit
  if ds = [] then none
  else some ⟨s.head? = some 45, digitsValue ds, body.dropWhile isdigit⟩

/-- A conversion: its value, where `end` points, and whether `errno` is `ERANGE`. -/
structure Conversion (α : Type) where
  value : α
  rest : Bytes
  range : Bool
  deriving DecidableEq, Repr

/-- `strtol` base 10 for a 64-bit `long`. Without digits `end` is `nptr`. -/
def strtol (s : Bytes) : Conversion Int :=
  match numeral? s with
  | none => ⟨0, s, false⟩
  | some n =>
    let v : Int := if n.negative then -n.value else n.value
    if v < -2 ^ 63 then ⟨-2 ^ 63, n.rest, true⟩
    else if 2 ^ 63 ≤ v then ⟨2 ^ 63 - 1, n.rest, true⟩
    else ⟨v, n.rest, false⟩

/-- The `unsigned long long` of a numeral: clamped from `2^64` on, and negated
modulo `2^64` after a minus sign. -/
def Numeral.unsigned (n : Numeral) : UInt64 :=
  if 2 ^ 64 ≤ n.value then UInt64.ofNat (2 ^ 64 - 1)
  else if n.negative then -UInt64.ofNat n.value
  else UInt64.ofNat n.value

def strtoull (s : Bytes) : Conversion UInt64 :=
  match numeral? s with
  | none => ⟨0, s, false⟩
  | some n => ⟨n.unsigned, n.rest, decide (2 ^ 64 ≤ n.value)⟩

section Rendering

theorem isdigit_digit {d : Nat} (h : d < 10) : isdigit (digit d) = true := by
  interval_cases d <;> decide

theorem digit_toNat {d : Nat} (h : d < 10) : (digit d).toNat - 48 = d := by
  interval_cases d <;> decide

theorem isdigit_of_mem_decimal {n : Nat} {b : UInt8} (h : b ∈ decimal n) :
    isdigit b = true := by
  unfold decimal at h
  split at h
  · simp only [List.mem_singleton] at h
    subst h
    decide
  · obtain ⟨d, hd, rfl⟩ := List.mem_map.mp h
    exact isdigit_digit (Nat.digits_lt_base (by norm_num) (List.mem_reverse.mp hd))

theorem decimal_ne_nil (n : Nat) : decimal n ≠ [] := by
  unfold decimal
  split
  · simp
  · rename_i h
    simpa using Nat.digits_ne_nil_iff_ne_zero.mpr h

theorem digitsValue_map_digit (ds : List Nat) (h : ∀ d ∈ ds, d < 10) :
    digitsValue (ds.reverse.map digit) = Nat.ofDigits 10 ds := by
  induction ds with
  | nil => rfl
  | cons d ds ih =>
    have hd := digit_toNat (h d (by simp))
    have htail := ih fun e he => h e (by simp [he])
    unfold digitsValue at htail ⊢
    rw [List.reverse_cons, List.map_append, List.foldl_append, htail]
    simp only [List.map_cons, List.map_nil, List.foldl_cons, List.foldl_nil, hd,
      Nat.ofDigits_cons]
    omega

@[simp] theorem digitsValue_decimal (n : Nat) : digitsValue (decimal n) = n := by
  unfold decimal
  split
  · subst n
    decide
  · rw [digitsValue_map_digit _ fun d hd => Nat.digits_lt_base (by norm_num) hd,
      Nat.ofDigits_digits]

theorem decimal_length_le {n k : Nat} (hk : 0 < k) (h : n < 10 ^ k) :
    (decimal n).length ≤ k := by
  unfold decimal
  split
  · exact hk
  · simpa using (Nat.digits_length_le_iff (by norm_num) n).mpr h

theorem not_isspace_of_isdigit {b : UInt8} (h : isdigit b = true) : isspace b = false := by
  simp only [isdigit, isspace, Bool.and_eq_true, decide_eq_true_eq, Bool.or_eq_false_iff,
    Bool.and_eq_false_iff, decide_eq_false_iff_not, beq_eq_false_iff_ne] at h ⊢
  refine ⟨fun h32 => ?_, Or.inr fun h13 => ?_⟩
  · subst h32
    exact absurd h.1 (by decide)
  · exact absurd (UInt8.le_trans h.1 h13) (by decide)

end Rendering

section Parsing

/-- A run of digits at the end of blanks reads back as its value, with no sign. -/
theorem numeral?_digits {w ds s : Bytes} (hw : ∀ b ∈ w, isspace b = true)
    (hds : ∀ b ∈ ds, isdigit b = true) (hne : ds ≠ []) (hs : Stops isdigit s) :
    numeral? (w ++ ds ++ s) = some ⟨false, digitsValue ds, s⟩ := by
  obtain ⟨d, ds, rfl⟩ := List.exists_cons_of_ne_nil hne
  have hd : isdigit d = true := hds d (by simp)
  have hdrop : (w ++ (d :: ds) ++ s).dropWhile isspace = d :: ds ++ s := by
    rw [List.append_assoc]
    exact dropWhile_append_stop hw (by simpa using not_isspace_of_isdigit hd)
  have hsign : d ≠ 43 ∧ d ≠ 45 := by
    constructor <;> rintro rfl <;> exact absurd hd (by decide)
  have htake := takeWhile_append_stop hds hs
  have hrest := dropWhile_append_stop hds hs
  unfold numeral?
  rw [hdrop]
  simp only [List.cons_append] at htake hrest ⊢
  simp [hsign.1, hsign.2, htake, hrest]

theorem numeral?_decimal {w s : Bytes} (n : Nat) (hw : ∀ b ∈ w, isspace b = true)
    (hs : Stops isdigit s) :
    numeral? (w ++ decimal n ++ s) = some ⟨false, n, s⟩ := by
  rw [numeral?_digits hw (fun b hb => isdigit_of_mem_decimal hb) (decimal_ne_nil n) hs,
    digitsValue_decimal]

theorem strtol_decimal {s : Bytes} {n : Nat} (h : n < 2 ^ 63) (hs : Stops isdigit s) :
    strtol (decimal n ++ s) = ⟨n, s, false⟩ := by
  have hnum := numeral?_decimal (w := []) n (by simp) hs
  rw [List.nil_append] at hnum
  simp only [strtol, hnum, Bool.false_eq_true, if_false]
  rw [if_neg (by omega), if_neg (by push_cast; omega)]

theorem strtoull_decimal (v : UInt64) :
    strtoull (decimal v.toNat) = ⟨v, [], false⟩ := by
  have hnum := numeral?_decimal (w := []) (s := []) v.toNat (by simp) stops_nil
  rw [List.nil_append, List.append_nil] at hnum
  have hlt := v.toNat_lt
  simp only [strtoull, hnum, Numeral.unsigned, Bool.false_eq_true, if_false]
  rw [if_neg (by omega), decide_eq_false (by omega)]
  simp

theorem unsigned_decimal (v : UInt64) (s : Bytes) :
    Numeral.unsigned ⟨false, v.toNat, s⟩ = v := by
  have hlt := v.toNat_lt
  simp only [Numeral.unsigned, Bool.false_eq_true, if_false]
  rw [if_neg (by omega)]
  simp

end Parsing

end CLib
