import Mathlib.Data.List.Lex
import Mathlib.Data.List.TakeWhile

/-! Byte strings as the C library sees them: the character classes of the C
locale and the searches of `string.h`. A string is the bytes before its NUL. -/
namespace CLib

abbrev Bytes := List UInt8

def ascii (text : String) : Bytes :=
  text.toList.map fun c => c.toNat.toUInt8

def isspace (b : UInt8) : Bool := b == 32 || (9 ≤ b && b ≤ 13)
def isdigit (b : UInt8) : Bool := 48 ≤ b && b ≤ 57
def isprint (b : UInt8) : Bool := 32 ≤ b && b ≤ 126

/-- The two blanks that the parsers skip by hand: space and tab. -/
def isblank (b : UInt8) : Bool := b == 32 || b == 9

def tolower (b : UInt8) : UInt8 :=
  if 65 ≤ b ∧ b ≤ 90 then b + 32 else b

/-- What the string functions see of a buffer. -/
def cstr (buffer : Bytes) : Bytes :=
  buffer.takeWhile (· != 0)

/-- Index of the first `c`, where `strchr` points. -/
def strchr : Bytes → UInt8 → Option Nat
  | [], _ => none
  | b :: s, c => if b = c then some 0 else (strchr s c).map (· + 1)

def strrchr : Bytes → UInt8 → Option Nat
  | [], _ => none
  | b :: s, c =>
    match strrchr s c with
    | some i => some (i + 1)
    | none => if b = c then some 0 else none

def strcspn (s reject : Bytes) : Nat :=
  (s.takeWhile fun b => !reject.contains b).length

/-- `strncmp(s, key, strlen(key)) == 0`. -/
def startsWith (s key : Bytes) : Bool := key.isPrefixOf s

/-- The difference of the first bytes that differ, as far as the NUL that ends a string.
One stands behind each list too. -/
def strcmp : Bytes → Bytes → Int
  | [], [] => 0
  | [], r :: _ => -r.toNat
  | l :: _, [] => l.toNat
  | l :: left, r :: right =>
    if l = r then if l = 0 then 0 else strcmp left right else l.toNat - r.toNat

def codes (s : Bytes) : List Nat := (cstr s).map UInt8.toNat

/-- `snprintf` into a buffer of `cap` bytes keeps `cap - 1` of them. -/
def snprintf (cap : Nat) (text : Bytes) : Bytes := text.take (cap - 1)

/-- The scan for `p` goes no further than the start of `s`. -/
def Stops (p : UInt8 → Bool) (s : Bytes) : Prop := ∀ b ∈ s.head?, p b = false

section Spans

variable {p : UInt8 → Bool}

@[simp] theorem stops_nil : Stops p [] := by simp [Stops]

@[simp] theorem stops_cons {b : UInt8} {s : Bytes} : Stops p (b :: s) ↔ p b = false := by
  simp [Stops]

theorem takeWhile_append_stop {w s : Bytes} (hw : ∀ b ∈ w, p b) (hs : Stops p s) :
    (w ++ s).takeWhile p = w := by
  rw [List.takeWhile_append_of_pos hw]
  cases s with
  | nil => simp
  | cons b s => simp [stops_cons.mp hs]

theorem dropWhile_append_stop {w s : Bytes} (hw : ∀ b ∈ w, p b) (hs : Stops p s) :
    (w ++ s).dropWhile p = s := by
  rw [List.dropWhile_append_of_pos hw]
  cases s with
  | nil => rfl
  | cons b s => simp [stops_cons.mp hs]

theorem dropWhile_of_stops {s : Bytes} (hs : Stops p s) : s.dropWhile p = s := by
  simpa using dropWhile_append_stop (w := []) (by simp) hs

theorem stops_dropWhile (p : UInt8 → Bool) (s : Bytes) : Stops p (s.dropWhile p) := by
  intro b hb
  have hne : s.dropWhile p ≠ [] := by rintro h; simp [h] at hb
  have hhead : (s.dropWhile p).head hne = b := by
    rw [List.head?_eq_some_head hne] at hb
    simpa using hb
  have hnot := List.head_dropWhile_not p hne
  rw [hhead] at hnot
  simpa using hnot

end Spans

theorem cstr_eq_self {s : Bytes} (h : 0 ∉ s) : cstr s = s := by
  rw [cstr, List.takeWhile_eq_self_iff]
  intro b hb
  have : b ≠ 0 := fun h0 => h (h0 ▸ hb)
  simpa using this

theorem strchr_eq_none {s : Bytes} {c : UInt8} (h : c ∉ s) : strchr s c = none := by
  induction s with
  | nil => rfl
  | cons b s ih =>
    have hb : b ≠ c := fun hbc => h (by simp [hbc])
    simp [strchr, hb, ih fun hc => h (by simp [hc])]

theorem strchr_append_cons {w s : Bytes} {c : UInt8} (h : c ∉ w) :
    strchr (w ++ c :: s) c = some w.length := by
  induction w with
  | nil => simp [strchr]
  | cons b w ih =>
    have hb : b ≠ c := fun hbc => h (by simp [hbc])
    simp [strchr, hb, ih fun hc => h (by simp [hc])]

theorem strrchr_eq_none {s : Bytes} {c : UInt8} (h : c ∉ s) : strrchr s c = none := by
  induction s with
  | nil => rfl
  | cons b s ih =>
    have hb : b ≠ c := fun hbc => h (by simp [hbc])
    simp [strrchr, hb, ih fun hc => h (by simp [hc])]

theorem strrchr_append_cons {w s : Bytes} {c : UInt8} (h : c ∉ s) :
    strrchr (w ++ c :: s) c = some w.length := by
  induction w with
  | nil => simp [strrchr, strrchr_eq_none h]
  | cons b w ih => simp [strrchr, ih]

theorem exists_last {s : Bytes} {c : UInt8} (h : c ∈ s) :
    ∃ w t, s = w ++ c :: t ∧ c ∉ t := by
  obtain ⟨t, w, heq, ht⟩ := List.eq_append_cons_of_mem (List.mem_reverse.mpr h)
  refine ⟨w.reverse, t.reverse, ?_, by simpa using ht⟩
  rw [← List.reverse_reverse s, heq]
  simp

theorem codes_zero (s : Bytes) : codes (0 :: s) = [] := rfl

theorem codes_cons {b : UInt8} (hb : b ≠ 0) (s : Bytes) :
    codes (b :: s) = b.toNat :: codes s := by
  simp [codes, cstr, hb]

theorem strcmp_compares (l r : Bytes) :
    (strcmp l r < 0 ↔ codes l < codes r) ∧ (strcmp l r = 0 ↔ codes l = codes r) := by
  have hpos : ∀ {b : UInt8}, b ≠ 0 → b.toNat ≠ 0 := fun hb h => hb (UInt8.toNat_inj.mp h)
  induction l generalizing r with
  | nil =>
    cases r with
    | nil => simp [strcmp, codes, cstr]
    | cons b r =>
      by_cases hb : b = 0
      · simp [hb, strcmp, codes, cstr]
      · have := hpos hb
        rw [codes_cons hb]
        simp [strcmp, codes, cstr]
        omega
  | cons a l ih =>
    by_cases ha : a = 0
    · subst ha
      rw [codes_zero]
      cases r with
      | nil => simp [strcmp, codes, cstr]
      | cons b r =>
        by_cases hb : b = 0
        · simp [hb, strcmp, codes, cstr]
        · have := hpos hb
          rw [codes_cons hb]
          have hne : (0 : UInt8) ≠ b := Ne.symm hb
          simp [strcmp, hne]
          omega
    · rw [codes_cons ha]
      cases r with
      | nil =>
        have := hpos ha
        simp [strcmp, codes, cstr]
        omega
      | cons b r =>
        by_cases hb : b = 0
        · have := hpos ha
          subst hb
          simp [strcmp, ha, codes_zero]
          omega
        · rw [codes_cons hb]
          by_cases hab : a = b
          · subst hab
            simp [strcmp, ha, ih r]
          · have hne : a.toNat ≠ b.toNat := fun h => hab (UInt8.toNat_inj.mp h)
            simp [strcmp, hab, hne, List.cons_lt_cons_iff]
            omega

theorem startsWith_append (key s : Bytes) : startsWith (key ++ s) key = true := by
  simp [startsWith]

theorem not_startsWith {s key : Bytes} (other : Bytes) (h : startsWith s key = true)
    (hkey : ¬ key <+: other) (hother : ¬ other <+: key) : startsWith s other = false := by
  rw [← Bool.not_eq_true]
  intro hs
  rcases List.prefix_or_prefix_of_prefix (List.isPrefixOf_iff_prefix.mp h)
    (List.isPrefixOf_iff_prefix.mp hs) with hpre | hpre
  · exact hkey hpre
  · exact hother hpre

end CLib
