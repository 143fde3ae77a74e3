import RookieTop.CLib.Stdio

/-! A text as its lines, and what a loop over `fgets` makes of it when no line is longer
than the buffer. A last line that is empty stands for a newline at the end of the text. -/
namespace CLib

def joinLines (lines : List Bytes) : Bytes := [10].intercalate lines

theorem joinLines_cons (line : Bytes) {lines : List Bytes} (h : lines ≠ []) :
    joinLines (line :: lines) = line ++ 10 :: joinLines lines := by
  unfold joinLines
  rw [List.intercalate_cons_of_ne_nil h, List.append_assoc, List.singleton_append]

def Fitting (size : Nat) (lines : List Bytes) : Prop :=
  ∀ line ∈ lines, 10 ∉ line ∧ line.length < size

/-- A line that only fits without its newline leaves that for the next call. -/
def pieces (size : Nat) : List Bytes → List Bytes
  | [] => []
  | [line] => if line = [] then [] else [line]
  | line :: next :: lines =>
    (if line.length + 1 < size then [line ++ [10]] else [line, [10]]) ++
      pieces size (next :: lines)

theorem Fitting.tail {size : Nat} {line : Bytes} {lines : List Bytes}
    (h : Fitting size (line :: lines)) : Fitting size lines :=
  fun l hl => h l (List.mem_cons_of_mem _ hl)

theorem fgets_last {size : Nat} {line : Bytes} (hline : 10 ∉ line) (hn : line.length < size)
    (hne : line ≠ []) : fgets size ⟨line, false⟩ = some (line, ⟨[], false⟩) := by
  have hcut : line.take (size - 1) = line := List.take_of_length_le (by omega)
  have htake := @takeLine_of_notMem (size - 1) line (by rwa [hcut])
  rw [hcut, List.drop_of_length_le (by omega)] at htake
  rw [fgets_eq_takeLine (by rwa [htake]), htake]

theorem fgetsAll_joinLines {size : Nat} (hsize : 1 < size) {lines : List Bytes}
    (h : Fitting size lines) : fgetsAll size ⟨joinLines lines, false⟩ = pieces size lines := by
  induction lines with
  | nil => rfl
  | cons line lines ih =>
    obtain ⟨hline, hlen⟩ := h line List.mem_cons_self
    cases lines with
    | nil =>
      rw [joinLines, List.intercalate_singleton, pieces]
      split_ifs with hnil
      · rw [hnil]
        rfl
      · rw [fgetsAll_of_fgets (fgets_last hline hlen hnil)]
        rfl
    | cons next lines =>
      rw [joinLines_cons line (List.cons_ne_nil _ _), pieces]
      split_ifs with hfits
      · rw [fgetsAll_newline hline hfits, ih h.tail]
        rfl
      · have htake : (line ++ 10 :: joinLines (next :: lines)).take (size - 1) = line :=
          List.take_left' (by omega)
        have hdrop : (line ++ 10 :: joinLines (next :: lines)).drop (size - 1) =
            10 :: joinLines (next :: lines) := List.drop_left' (by omega)
        have hfull := @fgets_full size (line ++ 10 :: joinLines (next :: lines)) false
          (by rwa [htake]) hsize (by rw [List.length_append]; omega)
        rw [htake, hdrop] at hfull
        have hbreak := @fgetsAll_newline size [] (joinLines (next :: lines)) false (by simp)
          (by simpa using hsize)
        rw [fgetsAll_of_fgets hfull, ← List.nil_append (10 :: _), hbreak, ih h.tail]
        rfl

theorem cstr_newline (line : Bytes) :
    cstr (line ++ [10]) = cstr line ∨
      cstr line = line ∧ cstr (line ++ [10]) = line ++ [10] := by
  by_cases hnul : 0 ∈ line
  · left
    obtain ⟨w, t, rfl, hw⟩ := List.eq_append_cons_of_mem hnul
    have hcut : ∀ s : Bytes, cstr (w ++ 0 :: s) = w := fun s => by
      refine takeWhile_append_stop (fun b hb => ?_) (stops_cons.mpr rfl)
      have hne : b ≠ 0 := fun h0 => hw (h0 ▸ hb)
      simpa using hne
    rw [List.append_assoc, List.cons_append, hcut, hcut]
  · right
    exact ⟨cstr_eq_self hnul, cstr_eq_self (by simp [hnul])⟩

theorem startsWith_newline {line key : Bytes} (hkey : 10 ∉ key) :
    startsWith (line ++ [10]) key = startsWith line key := by
  induction line generalizing key with
  | nil =>
    cases key with
    | nil => rfl
    | cons c key =>
      have hc : (c == 10) = false := beq_false_of_ne fun h => hkey (by simp [h])
      change (c == 10 && startsWith [] key) = false
      rw [hc, Bool.false_and]
  | cons b line ih =>
    cases key with
    | nil => rfl
    | cons c key =>
      change (c == b && startsWith (line ++ [10]) key) = (c == b && startsWith line key)
      rw [ih fun h => hkey (List.mem_cons_of_mem _ h)]

/-- One that looks at lines, not at how they end: the newline makes no difference, and an
empty line says nothing. -/
structure Linewise {α : Type} (read : Bytes → α) (nothing : α) : Prop where
  newline : ∀ line, 10 ∉ line → read (line ++ [10]) = read line
  empty : read [] = nothing

namespace Linewise

variable {α : Type} {read : Bytes → α} {nothing : α}

theorem cstr (h : Linewise read nothing) {line : Bytes} (hline : 10 ∉ line) :
    read (CLib.cstr (line ++ [10])) = read (CLib.cstr line) := by
  rcases cstr_newline line with heq | ⟨hself, heq⟩
  · rw [heq]
  · rw [heq, hself, h.newline line hline]

theorem newline_only (h : Linewise read nothing) : read (CLib.cstr [10]) = nothing := by
  have hnil := h.newline [] (by simp)
  exact hnil.trans h.empty

end Linewise

theorem filterMap_pieces {α : Type} {read : Bytes → Option α} (hread : Linewise read none)
    {size : Nat} {lines : List Bytes} (h : Fitting size lines) :
    ((pieces size lines).map cstr).filterMap read = (lines.map cstr).filterMap read := by
  induction lines with
  | nil => rfl
  | cons line lines ih =>
    have hline := (h line List.mem_cons_self).1
    cases lines with
    | nil =>
      rw [pieces]
      split_ifs with hnil
      · have hempty : read (cstr []) = none := hread.empty
        simp [hnil, hempty]
      · rfl
    | cons next lines =>
      have ih := ih h.tail
      rw [pieces]
      split_ifs
      · simp only [List.map_append, List.map_cons, List.map_nil, List.filterMap_append,
          List.filterMap_cons, hread.cstr hline, ih]
        cases read (cstr line) <;> rfl
      · simp only [List.map_append, List.map_cons, List.map_nil, List.filterMap_append,
          List.filterMap_cons, hread.newline_only, ih]
        cases read (cstr line) <;> rfl

theorem foldlM_pieces {State : Type} {step : State → Bytes → Option State}
    (hstep : ∀ s, Linewise (step s) (some s)) {size : Nat} {lines : List Bytes}
    (h : Fitting size lines) (s : State) :
    ((pieces size lines).map cstr).foldlM step s = (lines.map cstr).foldlM step s := by
  induction lines generalizing s with
  | nil => rfl
  | cons line lines ih =>
    have hline := (h line List.mem_cons_self).1
    cases lines with
    | nil =>
      rw [pieces]
      split_ifs with hnil
      · have hempty : step s (cstr []) = some s := (hstep s).empty
        rw [hnil, List.map_cons, List.foldlM_cons, hempty]
        rfl
      · rfl
    | cons next lines =>
      have ih := ih h.tail
      rw [pieces]
      split_ifs
      · rw [List.map_append, List.map_singleton, List.singleton_append, List.foldlM_cons,
          (hstep s).cstr hline, List.map_cons, List.foldlM_cons]
        exact congrArg _ (funext ih)
      · rw [List.map_append, List.map_cons, List.map_singleton, List.cons_append,
          List.singleton_append, List.foldlM_cons, List.map_cons, List.foldlM_cons]
        refine congrArg _ (funext fun t => ?_)
        rw [List.foldlM_cons, (hstep t).newline_only]
        exact ih t

end CLib
