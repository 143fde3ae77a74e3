import RookieTop.CLib.Words
import RookieTop.ProcessCpu

/-! The line of `/proc/<pid>/stat` as Linux writes it, `pid (comm) state fields...`,
with the name raw between the parentheses, and what the parser makes of it. -/
namespace RookieTop.StatLine

open CLib ProcDir ProcessCpu

theorem nextToken_words (s : Bytes) :
    (nextToken s = none ∧ words s = []) ∨
      ∃ w rest, nextToken s = some (w, rest) ∧ words s = w :: words rest := by
  by_cases hnil : s.dropWhile isspace = []
  · left
    unfold nextToken
    rw [← words_dropWhile, hnil]
    simp
  · right
    have hwords := words_eq_cons hnil (stops_dropWhile isspace s)
    rw [words_dropWhile] at hwords
    unfold nextToken
    dsimp only
    rw [if_neg hnil]
    exact ⟨_, _, rfl, hwords⟩

theorem scanFields_succ (n field : Nat) (s : Bytes) (found : StatFields) :
    (words s = [] ∧ scanFields (n + 1) field s found = none) ∨
      ∃ w rest, words s = w :: words rest ∧ scanFields (n + 1) field s found =
        (scanField field w found).bind (scanFields n (field + 1) rest) := by
  rcases nextToken_words s with ⟨hnone, hwords⟩ | ⟨w, rest, hnext, hwords⟩
  · exact Or.inl ⟨hwords, by simp only [scanFields, hnone, Option.bind_none]⟩
  · exact Or.inr ⟨w, rest, hwords, by simp only [scanFields, hnext, Option.bind_some]⟩

theorem scanFields_short {n : Nat} {s : Bytes} (h : (words s).length < n) (field : Nat)
    (found : StatFields) : scanFields n field s found = none := by
  induction n generalizing s field found with
  | zero => exact absurd h (Nat.not_lt_zero _)
  | succ n ih =>
    rcases scanFields_succ n field s found with ⟨-, hnone⟩ | ⟨w, rest, hwords, hscan⟩
    · exact hnone
    · have hrest : (words rest).length < n := by
        rw [hwords, List.length_cons] at h
        omega
      rw [hscan]
      cases scanField field w found with
      | none => rfl
      | some next => exact ih hrest (field + 1) next

theorem scanFields_pass {k : Nat} {s : Bytes} (hk : k ≤ (words s).length) (n field : Nat)
    (found : StatFields)
    (hskip : ∀ i, field ≤ i → i < field + k → i ≠ 14 ∧ i ≠ 15 ∧ i ≠ 22) :
    ∃ rest, words rest = (words s).drop k ∧
      scanFields (k + n) field s found = scanFields n (field + k) rest found := by
  induction k generalizing s field with
  | zero => exact ⟨s, rfl, by rw [Nat.zero_add, Nat.add_zero]⟩
  | succ k ih =>
    rw [Nat.succ_add]
    rcases scanFields_succ (k + n) field s found with ⟨hnil, -⟩ | ⟨w, rest, hwords, hscan⟩
    · rw [hnil] at hk
      exact absurd hk (by simp)
    · have hnot := hskip field (le_refl field) (by omega)
      have hkeep : scanField field w found = some found := by simp [scanField, hnot]
      have hlen : k ≤ (words rest).length := by
        rw [hwords, List.length_cons] at hk
        omega
      obtain ⟨behind, hbehind, heq⟩ := ih hlen (field + 1) fun i hi hlt =>
        hskip i (by omega) (by omega)
      refine ⟨behind, by rw [hbehind, hwords, List.drop_succ_cons], ?_⟩
      rw [hscan, hkeep, Option.bind_some, heq, Nat.add_assoc, Nat.add_comm 1]

theorem scanFields_take {w : Bytes} {ws : List Bytes} {s : Bytes} (hs : words s = w :: ws)
    (n field : Nat) (found : StatFields) :
    ∃ rest, words rest = ws ∧ scanFields (n + 1) field s found =
      (scanField field w found).bind (scanFields n (field + 1) rest) := by
  rcases scanFields_succ n field s found with ⟨hnil, -⟩ | ⟨w', rest, hwords, hscan⟩
  · rw [hnil] at hs
    cases hs
  · rw [hwords, List.cons.injEq] at hs
    obtain ⟨rfl, hrest⟩ := hs
    exact ⟨rest, hrest, hscan⟩

def counterIn (s : Bytes) (i : Nat) : Option UInt64 := (words s)[i]?.bind parseUintToken

/-- The loop takes the twelfth, thirteenth and twentieth word. -/
theorem scanFields_eq (s : Bytes) :
    scanFields 20 3 s ⟨none, none, none⟩ =
      (counterIn s 11).bind fun utime => (counterIn s 12).bind fun stime =>
        (counterIn s 19).map fun starttime => ⟨some utime, some stime, some starttime⟩ := by
  unfold counterIn
  by_cases hlen : (words s).length < 20
  · have hlast : (words s)[19]? = none := List.getElem?_eq_none (by omega)
    rw [scanFields_short hlen, hlast]
    simp
  · have h11 : 11 < (words s).length := by omega
    have h12 : 12 < (words s).length := by omega
    have h19 : 19 < (words s).length := by omega
    obtain ⟨s₁, hs₁, hscan₁⟩ := @scanFields_pass 11 s (by omega) 9 3 ⟨none, none, none⟩
      fun i hi hlt => by omega
    rw [List.drop_eq_getElem_cons h11] at hs₁
    obtain ⟨s₂, hs₂, hscan₂⟩ := scanFields_take hs₁ 8 14 ⟨none, none, none⟩
    rw [List.drop_eq_getElem_cons h12] at hs₂
    rw [hscan₁, hscan₂, List.getElem?_eq_getElem h11, List.getElem?_eq_getElem h12,
      List.getElem?_eq_getElem h19, scanField, if_pos rfl]
    simp only [Option.bind_some]
    cases parseUintToken (words s)[11] with
    | none => rfl
    | some utime =>
      obtain ⟨s₃, hs₃, hscan₃⟩ := scanFields_take hs₂ 7 15 ⟨some utime, none, none⟩
      rw [Option.map_some, Option.bind_some, Option.bind_some, hscan₃, scanField,
        if_neg (by decide), if_pos rfl]
      cases parseUintToken (words s)[12] with
      | none => rfl
      | some stime =>
        have hsix : 6 ≤ (words s₃).length := by
          rw [hs₃, List.length_drop]
          omega
        obtain ⟨s₄, hs₄, hscan₄⟩ := scanFields_pass hsix 1 16 ⟨some utime, some stime, none⟩
          fun i hi hlt => by omega
        rw [hs₃, List.drop_drop, List.drop_eq_getElem_cons h19] at hs₄
        obtain ⟨s₅, -, hscan₅⟩ := scanFields_take hs₄ 0 22 ⟨some utime, some stime, none⟩
        rw [Option.map_some, Option.bind_some, Option.bind_some, hscan₄, hscan₅, scanField,
          if_neg (by decide), if_neg (by decide), if_pos rfl]
        cases parseUintToken (words s)[19] <;> rfl

/-- A word that neither blanks nor a closing parenthesis cut. -/
structure Token where
  text : Bytes
  ne : text ≠ []
  clean : ∀ b ∈ text, isspace b = false ∧ b ≠ 41 ∧ b ≠ 0

def renderTokens (tokens : List Token) : Bytes := tokens.flatMap fun w => 32 :: w.text

theorem renderTokens_cons (w : Token) (tokens : List Token) (s : Bytes) :
    renderTokens (w :: tokens) ++ s = 32 :: (w.text ++ (renderTokens tokens ++ s)) := by
  simp [renderTokens]

theorem clean_renderTokens {tokens : List Token} {b : UInt8} (h : b ∈ renderTokens tokens) :
    b ≠ 10 ∧ b ≠ 41 ∧ b ≠ 0 := by
  obtain ⟨w, -, hw⟩ := List.mem_flatMap.mp h
  rcases List.mem_cons.mp hw with rfl | hw
  · decide
  · obtain ⟨hspace, hclose, hnul⟩ := w.clean b hw
    exact ⟨fun h10 => by simp [h10, isspace] at hspace, hclose, hnul⟩

/-- The scan of a word stops at the start of `s`. -/
def Ends (s : Bytes) : Prop := Stops (fun b => !isspace b) s

theorem ends_renderTokens {s : Bytes} (hs : Ends s) (tokens : List Token) :
    Ends (renderTokens tokens ++ s) := by
  cases tokens with
  | nil => exact hs
  | cons w tokens => exact stops_cons.mpr rfl

theorem words_renderTokens {s : Bytes} (hs : Ends s) (tokens : List Token) :
    words (renderTokens tokens ++ s) = tokens.map Token.text ++ words s := by
  induction tokens with
  | nil => rfl
  | cons w tokens ih =>
    rw [renderTokens_cons, words_space rfl,
      words_append w.ne (fun b hb => (w.clean b hb).1) (ends_renderTokens hs tokens), ih]
    rfl

theorem parseUintToken_decimal (v : UInt64) : parseUintToken (decimal v.toNat) = some v := by
  have hpos := List.length_pos_iff.mpr (decimal_ne_nil v.toNat)
  have hlen : (decimal v.toNat).length ≤ 20 :=
    decimal_length_le (by decide) (Nat.lt_trans v.toNat_lt (by decide))
  unfold parseUintToken
  rw [if_neg (by omega), strtoull_decimal]
  simp

theorem words_decimal {s : Bytes} (hs : Ends s) (n : Nat) :
    words (32 :: (decimal n ++ s)) = decimal n :: words s := by
  rw [words_space rfl, words_append (decimal_ne_nil n) _ hs]
  exact fun b hb => not_isspace_of_isdigit (isdigit_of_mem_decimal hb)

/-- The fields 3 to 22: the state and ten more, the two tick counters, six more, and
the start time. -/
structure Fields where
  state : Token
  ids : List Token
  utime : UInt64
  stime : UInt64
  sched : List Token
  starttime : UInt64
  ten : ids.length = 10
  six : sched.length = 6

namespace Fields

def text (f : Fields) : Bytes :=
  renderTokens (f.state :: f.ids) ++ 32 :: decimal f.utime.toNat ++
    32 :: decimal f.stime.toNat ++ renderTokens f.sched ++ 32 :: decimal f.starttime.toNat

theorem text_append (f : Fields) (s : Bytes) :
    f.text ++ s = renderTokens (f.state :: f.ids) ++ 32 :: (decimal f.utime.toNat ++
      32 :: (decimal f.stime.toNat ++ (renderTokens f.sched ++
        32 :: (decimal f.starttime.toNat ++ s)))) := by
  simp [text]

theorem words_text (f : Fields) {s : Bytes} (hs : Ends s) :
    words (f.text ++ s) = (f.state :: f.ids).map Token.text ++
      decimal f.utime.toNat :: decimal f.stime.toNat :: (f.sched.map Token.text ++
        decimal f.starttime.toNat :: words s) := by
  have hspace : ∀ s, Ends (32 :: s) := fun s => stops_cons.mpr rfl
  rw [text_append, words_renderTokens (hspace _), words_decimal (hspace _),
    words_decimal (ends_renderTokens (hspace _) f.sched), words_renderTokens (hspace _),
    words_decimal hs]

theorem scan (f : Fields) {s : Bytes} (hs : Ends s) :
    scanFields 20 3 (f.text ++ s) ⟨none, none, none⟩ =
      some ⟨some f.utime, some f.stime, some f.starttime⟩ := by
  have hids : ((f.state :: f.ids).map Token.text).length = 11 := by
    rw [List.length_map, List.length_cons, f.ten]
  have hsched : (f.sched.map Token.text).length = 6 := by rw [List.length_map, f.six]
  have hutime : counterIn (f.text ++ s) 11 = some f.utime := by
    rw [counterIn, f.words_text hs, List.getElem?_append_right (by omega), hids]
    exact parseUintToken_decimal f.utime
  have hstime : counterIn (f.text ++ s) 12 = some f.stime := by
    rw [counterIn, f.words_text hs, List.getElem?_append_right (by omega), hids]
    exact parseUintToken_decimal f.stime
  have hstarttime : counterIn (f.text ++ s) 19 = some f.starttime := by
    rw [counterIn, f.words_text hs, List.getElem?_append_right (by omega), hids,
      show 19 - 11 = 6 + 1 + 1 from rfl, List.getElem?_cons_succ, List.getElem?_cons_succ,
      List.getElem?_append_right (by omega), hsched]
    exact parseUintToken_decimal f.starttime
  rw [scanFields_eq, hutime, Option.bind_some, hstime, Option.bind_some, hstarttime,
    Option.map_some]

theorem clean (f : Fields) {b : UInt8} (h : b ∈ f.text) : b ≠ 10 ∧ b ≠ 41 ∧ b ≠ 0 := by
  have hdecimal : ∀ n, b ∈ decimal n → b ≠ 10 ∧ b ≠ 41 ∧ b ≠ 0 := fun n hb => by
    have hdigit := isdigit_of_mem_decimal hb
    refine ⟨?_, ?_, ?_⟩ <;> rintro rfl <;> exact absurd hdigit (by decide)
  have hspace : b = 32 → b ≠ 10 ∧ b ≠ 41 ∧ b ≠ 0 := by
    rintro rfl
    decide
  simp only [text, List.mem_append, List.mem_cons] at h
  rcases h with (((h | h | h) | h | h) | h) | h | h
  · exact clean_renderTokens h
  · exact hspace h
  · exact hdecimal _ h
  · exact hspace h
  · exact hdecimal _ h
  · exact clean_renderTokens h
  · exact hspace h
  · exact hdecimal _ h

end Fields

def opening (pid : Nat) (name : Bytes) : Bytes := decimal pid ++ 32 :: 40 :: name

theorem notMem_opening {pid : Nat} {name : Bytes} {c : UInt8} (hc : c = 10 ∨ c = 0)
    (h : c ∉ name) : c ∉ opening pid name := by
  intro hmem
  simp only [opening, List.mem_append, List.mem_cons] at hmem
  rcases hmem with hdigit | h32 | h40 | hname
  · have := isdigit_of_mem_decimal hdigit
    rcases hc with rfl | rfl <;> exact absurd this (by decide)
  · rcases hc with rfl | rfl <;> exact absurd h32 (by decide)
  · rcases hc with rfl | rfl <;> exact absurd h40 (by decide)
  · exact h hname

theorem opening_length {pid : Nat} (hmax : (pid : Int) ≤ intMax) (name : Bytes) :
    (opening pid name).length ≤ 12 + name.length := by
  have hdigits : (decimal pid).length ≤ 10 :=
    decimal_length_le (by decide) (by unfold intMax at hmax; omega)
  simp only [opening, List.length_append, List.length_cons]
  omega

/-- Where the last parenthesis of the line closes the name, the parser takes exactly
the name between them, and the fields from what follows. -/
theorem processCpuParseStat_line {pid : Nat} (hpid : 0 < pid) (hmax : (pid : Int) ≤ intMax)
    (name : Bytes) {tail : Bytes} (htail : 41 ∉ tail) :
    processCpuParseStat (opening pid name ++ 41 :: tail) =
      if name = [] ∨ processCpuNameMax ≤ name.length then none
      else statOf pid name (scanFields 20 3 tail ⟨none, none, none⟩) := by
  have hne := List.length_pos_iff.mpr (decimal_ne_nil pid)
  have hstrtol : strtol (opening pid name ++ 41 :: tail) =
      ⟨pid, 32 :: 40 :: (name ++ 41 :: tail), false⟩ := by
    rw [opening, List.append_assoc]
    exact strtol_decimal (by unfold intMax at hmax; omega) (stops_cons.mpr rfl)
  have hopen : strchr (32 :: 40 :: (name ++ 41 :: tail)) 40 = some 1 := by simp [strchr]
  have hclose : strrchr (opening pid name ++ 41 :: tail) 41 = some (opening pid name).length :=
    strrchr_append_cons htail
  have hlength : (opening pid name).length = (decimal pid).length + 2 + name.length := by
    simp only [opening, List.length_append, List.length_cons]
    omega
  have htotal : (opening pid name ++ 41 :: tail).length =
      (decimal pid).length + (32 :: 40 :: (name ++ 41 :: tail)).length := by
    rw [opening, List.append_assoc, List.length_append]
    rfl
  have hstart : (opening pid name ++ 41 :: tail).length -
      (32 :: 40 :: (name ++ 41 :: tail)).length = (decimal pid).length := by omega
  have hbad : ¬ (False ∨ (32 :: 40 :: (name ++ 41 :: tail)).length =
      (opening pid name ++ 41 :: tail).length ∨ (pid : Int) ≤ 0 ∨ intMax < (pid : Int)) := by
    rw [false_or]
    omega
  have hafter : (opening pid name ++ 41 :: tail).drop ((opening pid name).length + 1) = tail := by
    rw [List.drop_length_add_append]
    rfl
  have hname : ((opening pid name ++ 41 :: tail).drop ((decimal pid).length + 1 + 1)).take
      name.length = name := by
    rw [opening, List.append_assoc, Nat.add_assoc, List.drop_length_add_append]
    exact List.take_left
  have hempty : (opening pid name).length ≤ (decimal pid).length + 1 + 1 ↔ name = [] := by
    rw [hlength, ← List.length_eq_zero_iff]
    omega
  have hsize : (opening pid name).length - ((decimal pid).length + 1) - 1 = name.length := by
    omega
  unfold processCpuParseStat
  simp only [hstrtol, Bool.false_eq_true, if_neg hbad, hopen, hclose, hstart, hempty, hsize,
    hafter, hname]
  by_cases hnil : name = [] <;> simp [hnil]

theorem nextToken_length {s w rest : Bytes} (h : nextToken s = some (w, rest)) :
    rest.length < s.length := by
  unfold nextToken at h
  dsimp only at h
  split_ifs at h with hnil
  simp only [Option.some.injEq, Prod.mk.injEq] at h
  obtain ⟨-, rfl⟩ := h
  have hle : (s.dropWhile isspace).length ≤ s.length := List.length_dropWhile_le ..
  obtain ⟨b, t, ht⟩ := List.exists_cons_of_ne_nil hnil
  have hb : isspace b = false := stops_cons.mp (ht ▸ stops_dropWhile isspace s)
  rw [ht, List.length_cons] at hle
  rw [ht, List.dropWhile_cons_of_pos (by simp [hb])]
  have htail : (t.dropWhile fun b => !isspace b).length ≤ t.length := List.length_dropWhile_le ..
  omega

theorem scanFields_length {n field : Nat} {s : Bytes} {found found' : StatFields}
    (h : scanFields n field s found = some found') : n ≤ s.length := by
  induction n generalizing field s found with
  | zero => exact Nat.zero_le _
  | succ n ih =>
    obtain ⟨⟨w, rest⟩, hnext, hrest⟩ := Option.bind_eq_some_iff.mp h
    obtain ⟨next, -, hscan⟩ := Option.bind_eq_some_iff.mp hrest
    have hlt := nextToken_length hnext
    have hle := ih hscan
    omega

/-- A line that ends within a short name is no record: what follows its last
parenthesis, if it has one, has no room for twenty fields. -/
theorem processCpuParseStat_cut {pid : Nat} (hpid : 0 < pid) (hmax : (pid : Int) ≤ intMax)
    {name : Bytes} (hshort : name.length ≤ 15) :
    processCpuParseStat (opening pid name ++ [10]) = none := by
  by_cases hclose : 41 ∈ name
  · obtain ⟨w, s, rfl, hs⟩ := exists_last hclose
    have hline : opening pid (w ++ 41 :: s) ++ [10] = opening pid w ++ 41 :: (s ++ [10]) := by
      simp [opening]
    rw [hline, processCpuParseStat_line hpid hmax w (by simp [hs])]
    have hscan : scanFields 20 3 (s ++ [10]) ⟨none, none, none⟩ = none := by
      by_contra hne
      obtain ⟨found, hfound⟩ := Option.ne_none_iff_exists'.mp hne
      have hlen := scanFields_length hfound
      simp only [List.length_append, List.length_cons, List.length_nil] at hlen hshort
      omega
    rw [hscan]
    exact ite_self none
  · have hnone : strrchr (opening pid name ++ [10]) 41 = none := by
      apply strrchr_eq_none
      have hdecimal : (41 : UInt8) ∉ decimal pid := fun h =>
        absurd (isdigit_of_mem_decimal h) (by decide)
      simp [opening, hclose, hdecimal]
    unfold processCpuParseStat
    simp only [hnone]
    split_ifs
    · rfl
    · cases strchr (strtol (opening pid name ++ [10])).rest 40 <;> rfl

end RookieTop.StatLine
