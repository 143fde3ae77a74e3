import RookieTop.CLib.Numeral

/-! `sscanf`, for the directives `%llu` (also `%lu`), `%ws` and `%c`, white
space and literal bytes. The result lists the conversions that were assigned,
so its length is the number that `sscanf` returns (0 also where it returns EOF). -/
namespace CLib

inductive Directive where
  | space
  | literal (c : UInt8)
  | u64
  | word (width : Nat)
  | char
  deriving DecidableEq, Repr

inductive Scanned where
  | u64 (value : UInt64)
  | word (text : Bytes)
  | char (c : UInt8)
  deriving DecidableEq, Repr

def sscanf : List Directive → Bytes → List Scanned
  | [], _ => []
  | .space :: fmt, s => sscanf fmt (s.dropWhile isspace)
  | .literal c :: fmt, s =>
    match s with
    | b :: s => if b = c then sscanf fmt s else []
    | [] => []
  | .u64 :: fmt, s =>
    match numeral? s with
    | some n => .u64 n.unsigned :: sscanf fmt n.rest
    | none => []
  | .word width :: fmt, s =>
    let s := s.dropWhile isspace
    let text := (s.takeWhile fun b => !isspace b).take width
    if text = [] then [] else .word text :: sscanf fmt (s.drop text.length)
  | .char :: fmt, s =>
    match s with
    | b :: s => .char b :: sscanf fmt s
    | [] => []

/-- The format `" %llu %llu ..."` with `n` conversions. -/
def u64Fields : Nat → List Directive
  | 0 => []
  | n + 1 => .space :: .u64 :: u64Fields n

def renderFields : List (Bytes × UInt64) → Bytes
  | [] => []
  | (blanks, v) :: fields => blanks ++ decimal v.toNat ++ renderFields fields

theorem dropWhile_dropWhile_isspace (s : Bytes) :
    (s.dropWhile isspace).dropWhile isspace = s.dropWhile isspace :=
  dropWhile_of_stops (stops_dropWhile isspace s)

theorem sscanf_literals (key : Bytes) (fmt : List Directive) (s : Bytes) :
    sscanf (key.map .literal ++ fmt) s =
      if startsWith s key then sscanf fmt (s.drop key.length) else [] := by
  induction key generalizing s with
  | nil => rfl
  | cons c key ih =>
    cases s with
    | nil => rfl
    | cons b s =>
      have hstep : startsWith (b :: s) (c :: key) = (c == b && startsWith s key) := rfl
      rw [List.map_cons, List.cons_append, sscanf, hstep]
      by_cases hb : b = c
      · rw [if_pos hb, ih s, hb, beq_self_eq_true, Bool.true_and]
        rfl
      · have hne : (c == b) = false := beq_false_of_ne fun h => hb h.symm
        rw [if_neg hb, hne, Bool.false_and]
        rfl

theorem numeral?_dropWhile (s : Bytes) : numeral? (s.dropWhile isspace) = numeral? s := by
  simp only [numeral?, dropWhile_dropWhile_isspace]

theorem sscanf_u64 {w s : Bytes} (v : UInt64) (hw : ∀ b ∈ w, isspace b = true)
    (hs : Stops isdigit s) (fmt : List Directive) :
    sscanf (.space :: .u64 :: fmt) (w ++ decimal v.toNat ++ s) = .u64 v :: sscanf fmt s := by
  simp only [sscanf, numeral?_dropWhile, numeral?_decimal v.toNat hw hs, unsigned_decimal]

def Spaced (fields : List (Bytes × UInt64)) : Prop :=
  (∀ f ∈ fields, ∀ b ∈ f.1, isspace b = true) ∧ ∀ f ∈ fields.tail, f.1 ≠ []

theorem Spaced.tail {f : Bytes × UInt64} {fields : List (Bytes × UInt64)}
    (h : Spaced (f :: fields)) : Spaced fields :=
  ⟨fun g hg => h.1 g (by simp [hg]), fun g hg => h.2 g (List.mem_of_mem_tail hg)⟩

theorem stops_isdigit_of_space {w s : Bytes} (hw : ∀ b ∈ w, isspace b = true) (hne : w ≠ []) :
    Stops isdigit (w ++ s) := by
  obtain ⟨b, w, rfl⟩ := List.exists_cons_of_ne_nil hne
  have hb : isspace b = true := hw b (by simp)
  rw [List.cons_append, stops_cons]
  by_contra hd
  rw [not_isspace_of_isdigit (by simpa using hd)] at hb
  exact absurd hb (by decide)

theorem Spaced.stops {f : Bytes × UInt64} {fields : List (Bytes × UInt64)} {s : Bytes}
    (h : Spaced (f :: fields)) (hs : Stops isdigit s) :
    Stops isdigit (renderFields fields ++ s) := by
  cases fields with
  | nil => simpa [renderFields] using hs
  | cons g fields =>
    simp only [renderFields, List.append_assoc]
    exact stops_isdigit_of_space (h.1 g (by simp)) (h.2 g (by simp))

/-- Scanning rendered numbers assigns exactly them, up to the format's length. -/
theorem sscanf_renderFields (fields : List (Bytes × UInt64)) (n : Nat) {s : Bytes}
    (h : Spaced fields) (hs : Stops isdigit s) (hend : n ≤ fields.length ∨ numeral? s = none) :
    sscanf (u64Fields n) (renderFields fields ++ s) =
      (fields.take n).map fun f => .u64 f.2 := by
  induction n generalizing fields with
  | zero => simp [u64Fields, sscanf]
  | succ n ih =>
    cases fields with
    | nil =>
      have hnone : numeral? s = none := by simpa using hend
      simp [u64Fields, sscanf, renderFields, numeral?_dropWhile, hnone]
    | cons f fields =>
      have hnum := numeral?_decimal (s := renderFields fields ++ s) f.2.toNat
        (h.1 f (by simp)) (h.stops hs)
      rw [List.append_assoc] at hnum
      simp only [u64Fields, sscanf, renderFields, List.append_assoc, numeral?_dropWhile, hnum,
        unsigned_decimal, List.take_succ_cons, List.map_cons, List.cons.injEq, true_and]
      exact ih fields h.tail (by simpa using hend)

section Newline

theorem takeWhile_newline {p : UInt8 → Bool} (hp : p 10 = false) (s : Bytes) :
    (s ++ [10]).takeWhile p = s.takeWhile p := by
  induction s with
  | nil => simp [hp]
  | cons b s ih =>
    by_cases hb : p b = true
    · rw [List.cons_append, List.takeWhile_cons_of_pos hb, List.takeWhile_cons_of_pos hb, ih]
    · rw [List.cons_append, List.takeWhile_cons_of_neg hb, List.takeWhile_cons_of_neg hb]

theorem dropWhile_stops_newline {p : UInt8 → Bool} (hp : p 10 = false) (s : Bytes) :
    (s ++ [10]).dropWhile p = s.dropWhile p ++ [10] := by
  induction s with
  | nil => simp [hp]
  | cons b s ih =>
    by_cases hb : p b = true
    · rw [List.cons_append, List.dropWhile_cons_of_pos hb, List.dropWhile_cons_of_pos hb, ih]
    · rw [List.cons_append, List.dropWhile_cons_of_neg hb, List.dropWhile_cons_of_neg hb,
        List.cons_append]

theorem dropWhile_newline (s : Bytes) :
    (s.dropWhile isspace = [] ∧ (s ++ [10]).dropWhile isspace = []) ∨
      s.dropWhile isspace ≠ [] ∧ (s ++ [10]).dropWhile isspace = s.dropWhile isspace ++ [10] := by
  rw [List.dropWhile_append]
  by_cases h : s.dropWhile isspace = []
  · left
    rw [h]
    exact ⟨rfl, rfl⟩
  · right
    rw [if_neg (by simpa using h)]
    exact ⟨h, rfl⟩

theorem numeral?_newline (s : Bytes) :
    numeral? (s ++ [10]) = (numeral? s).map fun m => { m with rest := m.rest ++ [10] } := by
  unfold numeral?
  rcases dropWhile_newline s with ⟨hnil, hend⟩ | ⟨hne, hend⟩
  · rw [hnil, hend]
    rfl
  · rw [hend]
    obtain ⟨b, t, ht⟩ := List.exists_cons_of_ne_nil hne
    rw [ht]
    have htake := @takeWhile_newline isdigit rfl
    have hdrop := @dropWhile_stops_newline isdigit rfl
    by_cases hsign : b = 43 ∨ b = 45
    · simp only [List.cons_append, List.head?_cons, Option.some.injEq, hsign, if_true,
        List.tail_cons, htake t, hdrop t]
      split_ifs <;> rfl
    · simp only [List.cons_append, List.head?_cons, Option.some.injEq, hsign, if_false]
      rw [← List.cons_append, htake (b :: t), hdrop (b :: t)]
      split_ifs <;> rfl

theorem sscanf_newline (d : Directive) {fmt : List Directive}
    (h : ∀ s, sscanf fmt (s ++ [10]) = sscanf fmt s) (s : Bytes) :
    sscanf (.space :: d :: fmt) (s ++ [10]) = sscanf (.space :: d :: fmt) s := by
  unfold sscanf
  rcases dropWhile_newline s with ⟨hnil, hend⟩ | ⟨hne, hend⟩
  · rw [hnil, hend]
  · rw [hend]
    have hfirst := stops_dropWhile isspace s
    obtain ⟨b, t, ht⟩ := List.exists_cons_of_ne_nil hne
    rw [ht] at hfirst ⊢
    have hb : isspace b = false := stops_cons.mp hfirst
    cases d with
    | space =>
      simp only [sscanf, List.cons_append, List.dropWhile_cons_of_neg (Bool.eq_false_iff.mp hb)]
      exact h (b :: t)
    | literal c =>
      simp only [sscanf, List.cons_append]
      split_ifs
      · exact h t
      · rfl
    | u64 =>
      simp only [sscanf, numeral?_newline]
      cases numeral? (b :: t) with
      | none => rfl
      | some m => exact congrArg _ (h m.rest)
    | word width =>
      have hskip : (b :: t ++ [10]).dropWhile isspace = b :: t ++ [10] :=
        dropWhile_of_stops (stops_cons.mpr hb)
      have hself : (b :: t).dropWhile isspace = b :: t := dropWhile_of_stops hfirst
      have htake := @takeWhile_newline (fun b => !isspace b) rfl
      simp only [sscanf, hskip, hself, htake]
      split_ifs
      · rfl
      · have hle : (((b :: t).takeWhile fun b => !isspace b).take width).length ≤ (b :: t).length :=
          (List.take_prefix _ _).length_le.trans (List.takeWhile_prefix _).length_le
        rw [List.drop_append_of_le_length hle]
        exact congrArg _ (h _)
    | char =>
      simp only [sscanf, List.cons_append]
      exact congrArg _ (h t)

end Newline

end CLib
