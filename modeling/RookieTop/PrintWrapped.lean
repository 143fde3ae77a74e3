import RookieTop.CLib.Bytes
import RookieTop.Sys
import RookieTop.Text.Wrapping

/-! The paragraphs of the lessons on the screen. -/
namespace RookieTop.PrintWrapped

open CLib Sys Text

def isSpace (b : UInt8) : Bool := b == 32

structure Printed where
  row : Int
  col : Int
  text : Bytes
  deriving DecidableEq

/-- The search for a space, backward from `split`. -/
def findSplit (cursor : Bytes) : Nat → Nat
  | 0 => 0
  | split + 1 => if cursor[split + 1]? = some 32 then split + 1 else findSplit cursor split

def takeOf (width : Nat) (cursor : Bytes) : Nat :=
  let remaining := cursor.length
  let take := if remaining < width then remaining else width
  if width < remaining then
    let split := findSplit cursor take
    if 0 < split then split else take
  else take

/-- The loop, if it ends within so many passes: what it prints, and the row behind that. -/
def wrapLoop (col : Int) (width : Nat) : Nat → Int → Bytes → Option (List Printed × Int)
  | 0, _, _ => none
  | passes + 1, currentRow, cursor =>
    if cursor = [] then some ([], currentRow)
    else
      let cursor := cursor.dropWhile isSpace
      if cursor = [] then some ([], currentRow)
      else
        let take := takeOf width cursor
        (wrapLoop col width passes (currentRow + 1) ((cursor.drop take).dropWhile isSpace)).map
          fun (printed, row) => (⟨currentRow, col, cursor.take take⟩ :: printed, row)

def printWrapped (passes : Nat) (row col : Int) (width : Nat) (text : Bytes) :
    Option (List Printed × Int) :=
  wrapLoop col width passes row text

def lessonWidth (term : TerminalSize) : Nat :=
  let width := term.cols - 9
  let width := if 110 < width then 110 else width
  if width < 48 then 48 else width.toNat

theorem lessonWidth_bounds (term : TerminalSize) :
    48 ≤ lessonWidth term ∧ lessonWidth term ≤ 110 := by
  unfold lessonWidth
  dsimp only
  split_ifs <;> omega

/-- The split is the last space up to `take`, or 0 where there is none behind the start. -/
structure Splits (cursor : Bytes) (take split : Nat) : Prop where
  le : split ≤ take
  space : 0 < split → cursor[split]? = some 32
  last : ∀ i, split < i → i ≤ take → cursor[i]? ≠ some 32

theorem findSplit_splits (cursor : Bytes) (take : Nat) :
    Splits cursor take (findSplit cursor take) := by
  induction take with
  | zero => exact ⟨le_rfl, fun h => absurd h (by simp [findSplit]), fun i hlt hle => by omega⟩
  | succ take ih =>
    unfold findSplit
    split_ifs with hspace
    · exact ⟨le_rfl, fun _ => hspace, fun i hlt hle => by omega⟩
    · refine ⟨by have := ih.le; omega, ih.space, fun i hlt hle => ?_⟩
      rcases Nat.lt_or_ge take i with hnew | hold
      · rw [show i = take + 1 by omega]
        exact hspace
      · exact ih.last i hlt hold

section Line

variable {width : Nat} {cursor : Bytes}

theorem takeOf_pos (hwidth : 0 < width) (hne : cursor ≠ []) : 0 < takeOf width cursor := by
  have hlength := List.length_pos_iff.mpr hne
  unfold takeOf
  dsimp only
  split_ifs <;> omega

theorem takeOf_line (hwidth : 0 < width) (hne : cursor ≠ [])
    (hstart : ∀ a ∈ cursor.head?, isSpace a = false) :
    Line isSpace width (cursor.take (takeOf width cursor)) (cursor.drop (takeOf width cursor)) := by
  have hpos := takeOf_pos hwidth hne
  generalize htake : takeOf width cursor = take at hpos ⊢
  have hline : cursor.take take ≠ [] := by
    rw [← List.length_pos_iff, List.length_take]
    have := List.length_pos_iff.mpr hne
    omega
  have hfirst : ∀ a ∈ (cursor.take take).head?, isSpace a = false := by
    rw [List.head?_take, if_neg (by omega)]
    exact hstart
  have hnot : ∀ i : Nat, cursor[i]? ≠ some 32 → ∀ a ∈ cursor[i]?, isSpace a = false := by
    intro i hi a ha
    rw [Option.mem_def] at ha
    rw [ha] at hi
    simpa [isSpace] using hi
  unfold takeOf at htake
  dsimp only at htake
  by_cases hlong : width < cursor.length
  · rw [if_pos hlong, if_neg (show ¬ cursor.length < width by omega)] at htake
    have hsplits := findSplit_splits cursor width
    have hwhole : width < (cursor.take take ++ cursor.drop take).length := by
      rw [List.take_append_drop]
      exact hlong
    split_ifs at htake with hsplit
    · rw [htake] at hsplits
      have hlength : (cursor.take take).length = take := by
        rw [List.length_take]
        have := hsplits.le
        omega
      refine Line.at_gap hline hfirst ?_ (by rw [hlength]; exact hsplits.le) hwhole
        fun i hlt hle => ?_
      · rw [List.head?_drop, hsplits.space hpos]
        exact ⟨32, rfl, rfl⟩
      · rw [hlength] at hlt
        rw [List.take_append_drop]
        exact hnot i (hsplits.last i hlt hle)
    · subst htake
      have hzero : findSplit cursor width = 0 := by omega
      rw [hzero] at hsplits
      refine Line.in_word hline (by rw [List.length_take]; omega) hwhole fun i hi a ha => ?_
      rw [List.take_append_drop] at ha
      rcases Nat.eq_zero_or_pos i with rfl | hi0
      · rw [← List.head?_eq_getElem?] at ha
        exact hstart a ha
      · exact hnot i (hsplits.last i hi0 hi) a ha
  · have hall : take = cursor.length := by
      rw [if_neg hlong] at htake
      split_ifs at htake <;> omega
    rw [hall, List.take_length, List.drop_length]
    exact Line.whole hne hstart (by omega)

end Line

def placed (row col : Int) (lines : List Bytes) : List Printed :=
  lines.mapIdx fun i line => ⟨row + i, col, line⟩

theorem placed_cons (row col : Int) (line : Bytes) (lines : List Bytes) :
    placed row col (line :: lines) = ⟨row, col, line⟩ :: placed (row + 1) col lines := by
  have hnext : ∀ i : Nat, row + ((i + 1 : Nat) : Int) = row + 1 + i := fun i => by omega
  unfold placed
  rw [List.mapIdx_cons]
  simp only [hnext]
  rw [show row + ((0 : Nat) : Int) = row by omega]

theorem exists_wraps {width : Nat} (hwidth : 0 < width) (text : Bytes) :
    ∃ lines, Wraps isSpace width text lines ∧
      ∀ (passes : Nat) (row col : Int), text.length < passes →
        wrapLoop col width passes row text = some (placed row col lines, row + lines.length) := by
  induction hlength : text.length using Nat.strong_induction_on generalizing text with
  | _ length ih =>
    subst hlength
    have hblank : ∀ a ∈ text.takeWhile isSpace, isSpace a = true := fun a => List.mem_takeWhile_imp
    have hsplit := List.takeWhile_append_dropWhile (p := isSpace) (l := text)
    by_cases hnone : text.dropWhile isSpace = []
    · refine ⟨[], ?_, fun passes row col hpasses => ?_⟩
      · rw [← hsplit, hnone, List.append_nil]
        exact .nil hblank
      · obtain ⟨passes, rfl⟩ : ∃ k, passes = k + 1 := ⟨passes - 1, by omega⟩
        unfold wrapLoop
        dsimp only
        rw [if_pos hnone, ite_self]
        simp [placed]
    · generalize hcursor : text.dropWhile isSpace = cursor at hnone hsplit
      have hstart : ∀ a ∈ cursor.head?, isSpace a = false := by
        rw [← hcursor]
        exact stops_dropWhile isSpace text
      have hpos := takeOf_pos hwidth hnone
      have hne := List.length_pos_iff.mpr hnone
      have htext := congrArg List.length hsplit
      have hrest := (List.dropWhile_suffix (p := isSpace)
        (l := cursor.drop (takeOf width cursor))).length_le
      rw [List.length_append] at htext
      rw [List.length_drop] at hrest
      obtain ⟨lines, hwraps, hloop⟩ := ih _ (by omega)
        ((cursor.drop (takeOf width cursor)).dropWhile isSpace) rfl
      refine ⟨cursor.take (takeOf width cursor) :: lines, ?_, fun passes row col hpasses => ?_⟩
      · have hgaps : ∀ a ∈ (cursor.drop (takeOf width cursor)).takeWhile isSpace,
            isSpace a = true := fun a => List.mem_takeWhile_imp
        have hbehind := hwraps.blank hgaps
        rw [List.takeWhile_append_dropWhile] at hbehind
        have hwhole := Wraps.cons hblank (takeOf_line hwidth hnone hstart) hbehind
        rw [List.take_append_drop, hsplit] at hwhole
        exact hwhole
      · obtain ⟨passes, rfl⟩ : ∃ k, passes = k + 1 := ⟨passes - 1, by omega⟩
        unfold wrapLoop
        dsimp only
        have htextne : text ≠ [] := List.length_pos_iff.mp (by omega)
        rw [if_neg htextne, hcursor, if_neg hnone, hloop passes (row + 1) col (by omega), placed_cons,
          Option.map_some, List.length_cons]
        simp only [Option.some.injEq, Prod.mk.injEq, true_and]
        omega

/-- The loop ends, and has set the text in lines of the width: nothing but spaces is lost, a word
is cut only where no line has room for it, and a line ends only where it has no room for the next
word. -/
theorem printWrapped_wraps {width : Nat} (hwidth : 0 < width) (row col : Int) (text : Bytes) :
    ∃ lines : List Bytes,
      (∀ passes, text.length < passes → printWrapped passes row col width text =
        some (placed row col lines, row + lines.length)) ∧
      (∀ line ∈ lines, line ≠ [] ∧ line.length ≤ width ∧ ∀ a ∈ line.head?, isSpace a = false) ∧
      lines.flatten.filter (fun a => !isSpace a) = text.filter (fun a => !isSpace a) ∧
      ∀ before line after, lines = before ++ line :: after →
        ∃ head rest, text = head ++ (line ++ rest) ∧
          before.flatten.filter (fun a => !isSpace a) = head.filter (fun a => !isSpace a) ∧
          Wraps isSpace width rest after ∧
          (CutsWord isSpace line rest → (∀ a ∈ line, isSpace a = false) ∧
            width < (firstWord isSpace (line ++ rest)).length) ∧
          (after ≠ [] → width < line.length + (rest.takeWhile isSpace).length +
            (firstWord isSpace (rest.dropWhile isSpace)).length) := by
  obtain ⟨lines, hwraps, hloop⟩ := exists_wraps hwidth text
  refine ⟨lines, fun passes => hloop passes row col, fun line hline => ?_, hwraps.flatten, ?_⟩
  · obtain ⟨before, after, rfl⟩ := List.append_of_mem hline
    obtain ⟨-, rest, -, -, hcut, -⟩ := hwraps.line
    exact ⟨hcut.nonempty, hcut.fits, hcut.starts⟩
  · rintro before line after rfl
    obtain ⟨head, rest, htext, hhead, hline, hafter⟩ := hwraps.line
    refine ⟨head, rest, htext, hhead, hafter, hline.cut, fun hmore => hline.full ?_⟩
    obtain ⟨next, more, rfl⟩ := List.exists_cons_of_ne_nil hmore
    exact hafter.dropWhile_ne_nil

theorem sample_wraps :
    printWrapped 9 5 4 3 (ascii "ab cdefg") =
        some ([⟨5, 4, ascii "ab"⟩, ⟨6, 4, ascii "cde"⟩, ⟨7, 4, ascii "fg"⟩], 8) ∧
      ∃ lines : List Bytes, printWrapped 9 5 4 3 (ascii "ab cdefg") =
        some (placed 5 4 lines, 5 + (lines.length : Int)) := by
  obtain ⟨lines, hloop, -⟩ := @printWrapped_wraps 3 (by decide) 5 4 (ascii "ab cdefg")
  exact ⟨by decide, lines, hloop 9 (by decide)⟩

theorem lesson_printed (term : TerminalSize) (row col : Int) (text : Bytes) :
    ∃ lines, printWrapped (text.length + 1) row col (lessonWidth term) text =
        some (placed row col lines, row + lines.length) ∧
      Wraps isSpace (lessonWidth term) text lines := by
  have hwidth : 0 < lessonWidth term := Nat.lt_of_lt_of_le (by decide) (lessonWidth_bounds term).1
  obtain ⟨lines, hwraps, hloop⟩ := exists_wraps hwidth text
  exact ⟨lines, hloop _ row col (Nat.lt_succ_self _), hwraps⟩

end RookieTop.PrintWrapped
