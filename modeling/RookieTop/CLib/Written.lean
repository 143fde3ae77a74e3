import RookieTop.CLib.Scan

/-! Numerals as they are written, and what `sscanf` makes of a row of them. -/
namespace CLib

/-- What the conversions take for one number. -/
@[ext] structure Written where
  blanks : Bytes
  sign : Bytes
  digits : Bytes
  blank : ∀ b ∈ blanks, isspace b = true
  signs : sign = [] ∨ sign = [43] ∨ sign = [45]
  ne : digits ≠ []
  digit : ∀ b ∈ digits, isdigit b = true

namespace Written

variable (w : Written)

def text : Bytes := w.blanks ++ (w.sign ++ w.digits)

def value : Nat := digitsValue w.digits

/-- The number that `%llu` stores for it. -/
def unsigned : UInt64 := Numeral.unsigned ⟨decide (w.sign = [45]), w.value, []⟩

def Plain : Prop := w.sign = [] ∧ w.value < 2 ^ 64

variable {w}

theorem Plain.unsigned (h : w.Plain) : w.unsigned = UInt64.ofNat w.value := by
  unfold Written.unsigned Numeral.unsigned
  rw [if_neg (Nat.not_le.mpr h.2), h.1]
  rfl

theorem Plain.toNat (h : w.Plain) : w.unsigned.toNat = w.value := by
  rw [h.unsigned, UInt64.toNat_ofNat_of_lt' h.2]

def ofDecimal (blanks : Bytes) (v : Nat) (h : ∀ b ∈ blanks, isspace b = true) : Written where
  blanks := blanks
  sign := []
  digits := decimal v
  blank := h
  signs := Or.inl rfl
  ne := decimal_ne_nil v
  digit _ hb := isdigit_of_mem_decimal hb

theorem value_ofDecimal (blanks : Bytes) (v : Nat) (h : ∀ b ∈ blanks, isspace b = true) :
    (ofDecimal blanks v h).value = v := digitsValue_decimal v

theorem plain_ofDecimal {blanks : Bytes} {v : Nat} (h : ∀ b ∈ blanks, isspace b = true)
    (hv : v < 2 ^ 64) : (ofDecimal blanks v h).Plain :=
  ⟨rfl, by rwa [value_ofDecimal]⟩

theorem stops_isspace (w : Written) (s : Bytes) : Stops isspace (w.sign ++ w.digits ++ s) := by
  obtain ⟨d, ds, hds⟩ := List.exists_cons_of_ne_nil w.ne
  have hd : isspace d = false := not_isspace_of_isdigit (w.digit d (by simp [hds]))
  rcases w.signs with h | h | h <;> rw [h, hds]
  · exact stops_cons.mpr hd
  · exact stops_cons.mpr rfl
  · exact stops_cons.mpr rfl

theorem dropWhile_text (w : Written) (s : Bytes) :
    (w.text ++ s).dropWhile isspace = w.sign ++ w.digits ++ s := by
  rw [text, List.append_assoc]
  exact dropWhile_append_stop w.blank (w.stops_isspace s)

theorem digits_head (w : Written) (s : Bytes) :
    (w.digits ++ s).head? ≠ some 43 ∧ (w.digits ++ s).head? ≠ some 45 := by
  obtain ⟨d, ds, hds⟩ := List.exists_cons_of_ne_nil w.ne
  have hd := w.digit d (by simp [hds])
  rw [hds, List.cons_append, List.head?_cons]
  constructor <;> rintro h <;> cases Option.some.inj h <;> exact absurd hd (by decide)

/-- A numeral that no digit follows is read as itself. -/
theorem numeral?_text (w : Written) {s : Bytes} (hs : Stops isdigit s) :
    numeral? (w.text ++ s) = some ⟨decide (w.sign = [45]), w.value, s⟩ := by
  have htake := takeWhile_append_stop w.digit hs
  have hdrop := dropWhile_append_stop w.digit hs
  have hhead := w.digits_head s
  unfold numeral?
  rw [w.dropWhile_text s]
  rcases w.signs with h | h | h
  · simp only [h, List.nil_append, hhead.1, hhead.2, or_self, if_false, htake, hdrop, w.ne]
    rfl
  · simp [h, htake, hdrop, w.ne, value]
  · simp [h, htake, hdrop, w.ne, value]

/-- What is read as a numeral is one. -/
theorem exists_text {s : Bytes} {m : Numeral} (h : numeral? s = some m) :
    ∃ w : Written, s = w.text ++ m.rest ∧ Stops isdigit m.rest ∧
      m.negative = decide (w.sign = [45]) ∧ m.value = w.value := by
  have hblank : ∀ b ∈ s.takeWhile isspace, isspace b = true := fun b hb =>
    List.mem_takeWhile_imp hb
  obtain ⟨sign, body, hsign, hsplit, hbody⟩ : ∃ sign body : Bytes,
      (sign = [] ∨ sign = [43] ∨ sign = [45]) ∧ s.dropWhile isspace = sign ++ body ∧
      numeral? s = if body.takeWhile isdigit = [] then none
        else some ⟨decide (sign = [45]), digitsValue (body.takeWhile isdigit),
          body.dropWhile isdigit⟩ := by
    unfold numeral?
    cases hs : s.dropWhile isspace with
    | nil => exact ⟨[], [], Or.inl rfl, rfl, by simp⟩
    | cons b t =>
      by_cases hplus : b = 43
      · exact ⟨[43], t, Or.inr (Or.inl rfl), by rw [hplus]; rfl, by simp [hplus]⟩
      · by_cases hminus : b = 45
        · exact ⟨[45], t, Or.inr (Or.inr rfl), by rw [hminus]; rfl, by simp [hminus]⟩
        · exact ⟨[], b :: t, Or.inl rfl, rfl, by simp [hplus, hminus]⟩
  rw [hbody] at h
  split_ifs at h with hne
  cases Option.some.inj h
  refine ⟨⟨s.takeWhile isspace, sign, body.takeWhile isdigit, hblank, hsign, hne,
    fun b hb => List.mem_takeWhile_imp hb⟩, ?_, stops_dropWhile isdigit body, rfl, rfl⟩
  unfold text
  rw [List.append_assoc, List.append_assoc, List.takeWhile_append_dropWhile, ← hsplit,
    List.takeWhile_append_dropWhile]

/-- A text starts with one numeral at most. -/
theorem text_inj {w w' : Written} {s s' : Bytes} (hs : Stops isdigit s) (hs' : Stops isdigit s')
    (h : w.text ++ s = w'.text ++ s') : w = w' ∧ s = s' := by
  have hblanks : w.blanks = w'.blanks := by
    have htake : ∀ (v : Written) t, (v.text ++ t).takeWhile isspace = v.blanks := fun v t => by
      rw [text, List.append_assoc]
      exact takeWhile_append_stop v.blank (v.stops_isspace t)
    rw [← htake w s, h, htake w' s']
  have hbody : w.sign ++ (w.digits ++ s) = w'.sign ++ (w'.digits ++ s') := by
    rw [← List.append_assoc, ← List.append_assoc, ← w.dropWhile_text s, h, w'.dropWhile_text s']
  have hsign : w.sign = w'.sign := by
    have hhead := w.digits_head s
    have hhead' := w'.digits_head s'
    have heads := congrArg List.head? hbody
    rcases w.signs with hw | hw | hw <;> rcases w'.signs with hw' | hw' | hw' <;>
      rw [hw, hw'] at heads <;> rw [hw, hw']
    · exact absurd heads hhead.1
    · exact absurd heads hhead.2
    · exact absurd heads.symm hhead'.1
    · cases heads
    · exact absurd heads.symm hhead'.2
    · cases heads
  rw [hsign, List.append_cancel_left_eq] at hbody
  have hdigits : w.digits = w'.digits := by
    rw [← takeWhile_append_stop w.digit hs, hbody, takeWhile_append_stop w'.digit hs']
  rw [hdigits, List.append_cancel_left_eq] at hbody
  exact ⟨Written.ext hblanks hsign hdigits, hbody⟩

end Written

def writtenText (ws : List Written) : Bytes := ws.flatMap Written.text

/-- Each numeral behind the first is told apart by white space or a sign. -/
def Joined (ws : List Written) : Prop := ∀ w ∈ ws.tail, w.blanks ≠ [] ∨ w.sign ≠ []

theorem writtenText_cons (w : Written) (ws : List Written) (s : Bytes) :
    writtenText (w :: ws) ++ s = w.text ++ (writtenText ws ++ s) := by
  simp [writtenText]

theorem Joined.tail {w : Written} {ws : List Written} (h : Joined (w :: ws)) : Joined ws :=
  fun v hv => h v (List.mem_of_mem_tail hv)

theorem Joined.stops {w : Written} {ws : List Written} {s : Bytes} (h : Joined (w :: ws))
    (hs : Stops isdigit s) : Stops isdigit (writtenText ws ++ s) := by
  cases ws with
  | nil => exact hs
  | cons v ws =>
    rw [writtenText_cons, Written.text, List.append_assoc]
    rcases h v List.mem_cons_self with hblanks | hsign
    · exact stops_isdigit_of_space v.blank hblanks
    · by_cases hnil : v.blanks = []
      · rw [hnil]
        rcases v.signs with hv | hv | hv
        · exact absurd hv hsign
        · rw [hv]
          exact stops_cons.mpr rfl
        · rw [hv]
          exact stops_cons.mpr rfl
      · exact stops_isdigit_of_space v.blank hnil

theorem sscanf_number (w : Written) {s : Bytes} (hs : Stops isdigit s) (fmt : List Directive) :
    sscanf (.space :: .u64 :: fmt) (w.text ++ s) = .u64 w.unsigned :: sscanf fmt s := by
  simp only [sscanf, numeral?_dropWhile, w.numeral?_text hs]
  rfl

theorem sscanf_unit {gap unit trail : Bytes} (hgap : ∀ b ∈ gap, isspace b = true) (hne : unit ≠ [])
    (hunit : ∀ b ∈ unit, isspace b = false) (htrail : ∀ b ∈ trail, isspace b = true) :
    sscanf [.space, .word 2, .space, .char] (gap ++ (unit ++ trail)) =
      .word (unit.take 2) :: ((unit.drop 2).head?.map Scanned.char).toList := by
  have hfirst : Stops isspace (unit ++ trail) := by
    obtain ⟨b, s, rfl⟩ := List.exists_cons_of_ne_nil hne
    exact stops_cons.mpr (hunit b List.mem_cons_self)
  have hword : (unit ++ trail).takeWhile (fun b => !isspace b) = unit := by
    refine takeWhile_append_stop (fun b hb => by simp [hunit b hb]) fun b hb => ?_
    simp [htrail b (List.mem_of_mem_head? hb)]
  have hlen : (unit.take 2).length ≤ unit.length := (List.take_prefix 2 unit).length_le
  have hdrop : (unit ++ trail).drop (unit.take 2).length = unit.drop 2 ++ trail := by
    rw [List.drop_append_of_le_length hlen]
    rcases Nat.le_total 2 unit.length with h | h
    · rw [List.length_take, Nat.min_eq_left h]
    · rw [List.take_of_length_le h, List.drop_length, List.drop_of_length_le h]
  have htwo : unit.take 2 ≠ [] := by
    rw [ne_eq, List.take_eq_nil_iff]
    simpa using hne
  simp only [sscanf, dropWhile_append_stop hgap hfirst, dropWhile_of_stops hfirst, hword,
    if_neg htwo, hdrop]
  cases hrest : unit.drop 2 with
  | nil =>
    rw [List.nil_append, List.dropWhile_eq_nil_iff.mpr htrail]
    rfl
  | cons c s =>
    have hc : isspace c = false :=
      hunit c (List.mem_of_mem_drop (hrest ▸ List.mem_cons_self))
    rw [List.cons_append, dropWhile_of_stops (stops_cons.mpr hc)]
    rfl

theorem numeral?_blank {s : Bytes} (h : ∀ b ∈ s, isspace b = true) : numeral? s = none := by
  rw [← numeral?_dropWhile, List.dropWhile_eq_nil_iff.mpr h]
  rfl

theorem stops_isdigit_of_blank {s : Bytes} (h : ∀ b ∈ s, isspace b = true) : Stops isdigit s := by
  by_cases hs : s = []
  · rw [hs]
    exact stops_nil
  · simpa using stops_isdigit_of_space (s := []) h hs

theorem exists_unit {s unit : Bytes} (hlen : unit.length = 2)
    (h : sscanf [.space, .word 2, .space, .char] s = [.word unit]) :
    ∃ gap trail, s = gap ++ (unit ++ trail) ∧ (∀ b ∈ gap, isspace b = true) ∧
      ∀ b ∈ trail, isspace b = true := by
  simp only [sscanf, dropWhile_dropWhile_isspace] at h
  split_ifs at h with hne
  rw [List.cons.injEq, Scanned.word.injEq] at h
  obtain ⟨hword, hlast⟩ := h
  rw [hword, hlen] at hlast
  have hstart : unit <+: s.dropWhile isspace := by
    rw [← hword]
    exact (List.take_prefix _ _).trans (List.takeWhile_prefix _)
  obtain ⟨trail, htrail⟩ := hstart
  rw [← htrail, List.drop_left' hlen] at hlast
  refine ⟨s.takeWhile isspace, trail, ?_, fun b hb => List.mem_takeWhile_imp hb, ?_⟩
  · rw [htrail, List.takeWhile_append_dropWhile]
  · rw [← List.dropWhile_eq_nil_iff]
    cases hrest : trail.dropWhile isspace with
    | nil => rfl
    | cons c t =>
      rw [hrest] at hlast
      cases hlast

theorem sscanf_only_number (w : Written) {trail : Bytes} (h : ∀ b ∈ trail, isspace b = true) :
    sscanf [.space, .u64, .space, .char] (w.text ++ trail) = [.u64 w.unsigned] := by
  rw [sscanf_number w (stops_isdigit_of_blank h)]
  simp only [sscanf, List.dropWhile_eq_nil_iff.mpr h]

theorem exists_only_number {s : Bytes} {v : UInt64}
    (h : sscanf [.space, .u64, .space, .char] s = [.u64 v]) :
    ∃ (w : Written) (trail : Bytes), s = w.text ++ trail ∧ ∀ b ∈ trail, isspace b = true := by
  simp only [sscanf, numeral?_dropWhile] at h
  cases hnum : numeral? s with
  | none =>
    rw [hnum] at h
    cases h
  | some m =>
    rw [hnum, List.cons.injEq] at h
    obtain ⟨w, hs, -⟩ := Written.exists_text hnum
    refine ⟨w, m.rest, hs, ?_⟩
    rw [← List.dropWhile_eq_nil_iff]
    cases hrest : m.rest.dropWhile isspace with
    | nil => rfl
    | cons c t =>
      have hlast := h.2
      rw [hrest] at hlast
      cases hlast

theorem sscanf_none {s : Bytes} (h : numeral? s = none) (n : Nat) :
    sscanf (u64Fields n) s = [] := by
  cases n with
  | zero => rfl
  | succ n => simp only [u64Fields, sscanf, numeral?_dropWhile, h]

theorem sscanf_writtenText (n : Nat) {ws : List Written} {s : Bytes} (h : Joined ws)
    (hs : Stops isdigit s) :
    sscanf (u64Fields n) (writtenText ws ++ s) =
      (ws.take n).map (fun w => .u64 w.unsigned) ++ sscanf (u64Fields (n - ws.length)) s := by
  induction n generalizing ws with
  | zero => simp [u64Fields, sscanf]
  | succ n ih =>
    cases ws with
    | nil => rfl
    | cons w ws =>
      rw [writtenText_cons, u64Fields, sscanf_number w (h.stops hs), ih h.tail,
        List.length_cons, Nat.add_sub_add_right]
      rfl

/-- Where `k` numbers are stored, the text starts with `k` numerals. -/
theorem exists_writtenText {k n : Nat} {s : Bytes} (h : k ≤ (sscanf (u64Fields n) s).length) :
    ∃ ws rest, s = writtenText ws ++ rest ∧ ws.length = k ∧ Joined ws ∧
      (k = 0 ∨ Stops isdigit rest) := by
  induction k generalizing n s with
  | zero => exact ⟨[], s, rfl, rfl, by simp [Joined], Or.inl rfl⟩
  | succ k ih =>
    cases n with
    | zero => simp [u64Fields, sscanf] at h
    | succ n =>
      simp only [u64Fields, sscanf, numeral?_dropWhile] at h
      cases hnum : numeral? s with
      | none => simp [hnum] at h
      | some m =>
        rw [hnum, List.length_cons, Nat.add_le_add_iff_right] at h
        obtain ⟨w, hs, hstop, -⟩ := Written.exists_text hnum
        obtain ⟨ws, rest, hrest, hlen, hjoined, hend⟩ := ih h
        refine ⟨w :: ws, rest, by rw [writtenText_cons, ← hrest, hs], by rw [List.length_cons, hlen],
          ?_, Or.inr ?_⟩
        · intro v hv
          cases ws with
          | nil => cases hv
          | cons first ws =>
            rcases List.mem_cons.mp hv with rfl | hv
            · by_contra hnone
              rw [not_or, not_not, not_not] at hnone
              obtain ⟨d, ds, hds⟩ := List.exists_cons_of_ne_nil v.ne
              rw [hrest, writtenText_cons, Written.text, hnone.1, hnone.2, List.nil_append,
                List.nil_append, hds, List.cons_append, stops_cons] at hstop
              exact absurd (v.digit d (by simp [hds])) (by simp [hstop])
            · exact hjoined v hv
        · rcases hend with hzero | hstops
          · rw [List.length_eq_zero_iff.mp (hlen.trans hzero), writtenText, List.flatMap_nil,
              List.nil_append] at hrest
            rwa [← hrest]
          · exact hstops

def Numbered (k : Nat) (s : Bytes) : Prop :=
  ∃ ws rest, s = writtenText ws ++ rest ∧ ws.length = k ∧ Joined ws ∧ Stops isdigit rest

theorem numbered_iff {k n : Nat} (hk : 0 < k) (hn : k ≤ n) (s : Bytes) :
    Numbered k s ↔ k ≤ (sscanf (u64Fields n) s).length := by
  constructor
  · rintro ⟨ws, rest, rfl, rfl, hjoined, hstops⟩
    rw [sscanf_writtenText n hjoined hstops, List.take_of_length_le hn, List.length_append,
      List.length_map]
    exact Nat.le_add_right _ _
  · intro h
    obtain ⟨ws, rest, hs, hlen, hjoined, hend⟩ := exists_writtenText h
    exact ⟨ws, rest, hs, hlen, hjoined, hend.resolve_left (by omega)⟩

theorem writtenText_inj {ws ws' : List Written} {s s' : Bytes} (hlen : ws.length = ws'.length)
    (hj : Joined ws) (hj' : Joined ws') (hs : Stops isdigit s) (hs' : Stops isdigit s')
    (h : writtenText ws ++ s = writtenText ws' ++ s') : ws = ws' := by
  induction ws generalizing ws' with
  | nil => exact (List.length_eq_zero_iff.mp hlen.symm).symm
  | cons w ws ih =>
    cases ws' with
    | nil => cases hlen
    | cons w' ws' =>
      rw [writtenText_cons, writtenText_cons] at h
      obtain ⟨rfl, hrest⟩ := Written.text_inj (hj.stops hs) (hj'.stops hs') h
      rw [ih (Nat.succ.inj hlen) hj.tail hj'.tail hrest]

end CLib
