import Mathlib.Data.List.TakeWhile

/-! Texts that are set in lines of a bounded width. Lines are cut at gaps, and a word is cut only
where no line has room for it. -/
namespace Text

variable {α : Type} (gap : α → Bool) (width : Nat)

def firstWord (text : List α) : List α := text.takeWhile fun a => !gap a

def CutsWord (line rest : List α) : Prop :=
  (∃ a ∈ line.getLast?, gap a = false) ∧ ∃ a ∈ rest.head?, gap a = false

structure Line (line rest : List α) : Prop where
  nonempty : line ≠ []
  fits : line.length ≤ width
  starts : ∀ a ∈ line.head?, gap a = false
  /-- A word that is cut is longer than a line, from the start of this one, which has no other. -/
  cut : CutsWord gap line rest →
    (∀ a ∈ line, gap a = false) ∧ width < (firstWord gap (line ++ rest)).length
  full : rest.dropWhile gap ≠ [] → width < line.length + (rest.takeWhile gap).length +
    (firstWord gap (rest.dropWhile gap)).length

/-- The lines of a text, with gaps in front of them and behind the last. -/
inductive Wraps : List α → List (List α) → Prop where
  | nil {blank : List α} (hblank : ∀ a ∈ blank, gap a = true) : Wraps blank []
  | cons {blank line rest : List α} {lines : List (List α)} (hblank : ∀ a ∈ blank, gap a = true)
      (hline : Line gap width line rest) (hrest : Wraps rest lines) :
      Wraps (blank ++ (line ++ rest)) (line :: lines)

variable {gap width}

theorem Line.whole {text : List α} (hne : text ≠ []) (hstart : ∀ a ∈ text.head?, gap a = false)
    (hlength : text.length ≤ width) : Line gap width text [] where
  nonempty := hne
  fits := hlength
  starts := hstart
  cut h := by
    obtain ⟨-, a, ha, -⟩ := h
    cases ha
  full h := absurd rfl h

theorem firstWord_length_pos {text : List α} (h : text.dropWhile gap ≠ []) :
    0 < (firstWord gap (text.dropWhile gap)).length := by
  have hhead := List.head_dropWhile_not gap h
  obtain ⟨a, rest, heq⟩ := List.exists_cons_of_ne_nil h
  simp only [heq, List.head_cons] at hhead
  unfold firstWord
  rw [heq, List.takeWhile_cons_of_pos (by rw [hhead]; rfl)]
  exact Nat.succ_pos _

/-- A line behind which a line of the width could not be cut has no room for another word: behind
the word there would be a gap. -/
theorem full_of_last {line rest : List α} (hlong : width < (line ++ rest).length)
    (hlast : ∀ i, line.length < i → i ≤ width → ∀ a ∈ (line ++ rest)[i]?, gap a = false)
    (h : rest.dropWhile gap ≠ []) :
    width < line.length + (rest.takeWhile gap).length +
      (firstWord gap (rest.dropWhile gap)).length := by
  by_contra hroom
  have hword := firstWord_length_pos h
  have hsplit : line ++ rest = (line ++ rest.takeWhile gap ++ firstWord gap (rest.dropWhile gap)) ++
      (rest.dropWhile gap).dropWhile fun a => !gap a := by
    unfold firstWord
    rw [List.append_assoc, List.takeWhile_append_dropWhile, List.append_assoc,
      List.takeWhile_append_dropWhile]
  generalize hbehind : ((rest.dropWhile gap).dropWhile fun a => !gap a) = behind at hsplit
  have hlength : (line ++ rest.takeWhile gap ++ firstWord gap (rest.dropWhile gap)).length =
      line.length + (rest.takeWhile gap).length +
        (firstWord gap (rest.dropWhile gap)).length := by
    rw [List.length_append, List.length_append]
  cases behind with
  | nil =>
    rw [hsplit, List.append_nil] at hlong
    omega
  | cons a behind =>
    have hgap : (!gap a) = false := by
      have hne : ((rest.dropWhile gap).dropWhile fun a => !gap a) ≠ [] := by
        rw [hbehind]
        exact List.cons_ne_nil a behind
      have hhead := List.head_dropWhile_not (fun a => !gap a) hne
      simpa only [hbehind, List.head_cons] using hhead
    have hat : a ∈ (line ++ rest)[line.length + (rest.takeWhile gap).length +
        (firstWord gap (rest.dropWhile gap)).length]? := by
      rw [hsplit, ← hlength, List.getElem?_append_right le_rfl, Nat.sub_self]
      rfl
    have hnot := hlast _ (by omega) (by omega) a hat
    rw [hnot] at hgap
    cases hgap

theorem Line.at_gap {line rest : List α} (hne : line ≠ [])
    (hstart : ∀ a ∈ line.head?, gap a = false) (hgap : ∃ a ∈ rest.head?, gap a = true)
    (hfits : line.length ≤ width) (hlong : width < (line ++ rest).length)
    (hlast : ∀ i, line.length < i → i ≤ width → ∀ a ∈ (line ++ rest)[i]?, gap a = false) :
    Line gap width line rest where
  nonempty := hne
  fits := hfits
  starts := hstart
  cut h := by
    obtain ⟨a, ha, hgap⟩ := hgap
    obtain ⟨-, b, hb, hnot⟩ := h
    rw [Option.mem_unique ha hb, hnot] at hgap
    cases hgap
  full := full_of_last hlong hlast

theorem Line.in_word {line rest : List α} (hne : line ≠ [])
    (hlength : line.length = width) (hlong : width < (line ++ rest).length)
    (hword : ∀ i ≤ width, ∀ a ∈ (line ++ rest)[i]?, gap a = false) :
    Line gap width line rest where
  nonempty := hne
  fits := hlength.le
  starts a ha := by
    refine hword 0 (Nat.zero_le _) a ?_
    rw [List.getElem?_append_left (List.length_pos_iff.mpr hne), ← List.head?_eq_getElem?]
    exact ha
  cut _ := by
    have hline : ∀ a ∈ line, gap a = false := by
      intro a ha
      obtain ⟨i, hi, rfl⟩ := List.mem_iff_getElem.mp ha
      refine hword i (by omega) _ ?_
      rw [List.getElem?_append_left hi, List.getElem?_eq_getElem hi]
      rfl
    refine ⟨hline, ?_⟩
    have hstart : ∀ a ∈ (line ++ rest).take (width + 1), (!gap a) = true := by
      intro a ha
      obtain ⟨i, hi, rfl⟩ := List.mem_iff_getElem.mp ha
      have hbound := hi
      rw [List.length_take] at hbound
      have hat : (line ++ rest)[i]? = some ((line ++ rest).take (width + 1))[i] := by
        rw [List.getElem_take, List.getElem?_eq_getElem (by omega)]
      rw [hword i (by omega) _ hat]
      rfl
    unfold firstWord
    rw [← List.take_append_drop (width + 1) (line ++ rest), List.takeWhile_append_of_pos hstart,
      List.length_append, List.length_take]
    omega
  full := full_of_last hlong fun i _ hi => hword i hi

theorem Wraps.blank {blank text : List α} {lines : List (List α)}
    (hblank : ∀ a ∈ blank, gap a = true) (h : Wraps gap width text lines) :
    Wraps gap width (blank ++ text) lines := by
  cases h with
  | nil hmore => exact .nil fun a ha => (List.mem_append.mp ha).elim (hblank a) (hmore a)
  | cons hmore hline hrest =>
    rw [← List.append_assoc]
    exact .cons (fun a ha => (List.mem_append.mp ha).elim (hblank a) (hmore a)) hline hrest

theorem Wraps.flatten {text : List α} {lines : List (List α)} (h : Wraps gap width text lines) :
    lines.flatten.filter (fun a => !gap a) = text.filter fun a => !gap a := by
  have hgaps : ∀ {blank : List α}, (∀ a ∈ blank, gap a = true) →
      blank.filter (fun a => !gap a) = [] := fun hblank =>
    List.filter_eq_nil_iff.mpr fun a ha => by simp [hblank a ha]
  induction h with
  | nil hblank => rw [hgaps hblank, List.flatten_nil, List.filter_nil]
  | cons hblank hline hrest ih =>
    rw [List.flatten_cons, List.filter_append, List.filter_append, List.filter_append, ih,
      hgaps hblank, List.nil_append]

theorem Wraps.line {text : List α} {before after : List (List α)} {line : List α}
    (h : Wraps gap width text (before ++ line :: after)) :
    ∃ head rest, text = head ++ (line ++ rest) ∧
      before.flatten.filter (fun a => !gap a) = head.filter (fun a => !gap a) ∧
      Line gap width line rest ∧ Wraps gap width rest after := by
  induction before generalizing text with
  | nil =>
    cases h with
    | cons hblank hline hrest =>
      refine ⟨_, _, rfl, ?_, hline, hrest⟩
      exact (List.filter_eq_nil_iff.mpr fun a ha => by simp [hblank a ha]).symm
  | cons first before ih =>
    cases h with
    | @cons blank _ rest _ hblank hfirst hrest =>
      obtain ⟨head, rest', rfl, hhead, hline, hafter⟩ := ih hrest
      refine ⟨blank ++ (first ++ head), rest', by simp, ?_, hline, hafter⟩
      have hgaps : blank.filter (fun a => !gap a) = [] :=
        List.filter_eq_nil_iff.mpr fun a ha => by simp [hblank a ha]
      rw [List.flatten_cons, List.filter_append, List.filter_append, List.filter_append, hgaps,
        hhead, List.nil_append]

theorem Wraps.dropWhile_ne_nil {text line : List α} {lines : List (List α)}
    (h : Wraps gap width text (line :: lines)) : text.dropWhile gap ≠ [] := by
  cases h with
  | @cons blank _ rest _ hblank hline hrest =>
    obtain ⟨a, tail, rfl⟩ := List.exists_cons_of_ne_nil hline.nonempty
    rw [List.dropWhile_append_of_pos hblank, List.cons_append,
      List.dropWhile_cons_of_neg (by simp [hline.starts a rfl])]
    exact List.cons_ne_nil _ _

end Text
