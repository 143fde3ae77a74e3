import RookieTop.App

/-! The table of the process explorer on the screen. The offset of the table is made from
the number of lines that should be visible, its end from the height of the terminal. -/
namespace RookieTop.RenderProcesses

open CLib Sys ProcessList App

def kibPerMib : ℚ := 1024

def teachingStateName (state : UInt8) : Bytes :=
  if state = 82 then ascii "Running"
  else if state = 83 then ascii "Sleeping"
  else if state = 68 then ascii "Waiting I/O"
  else if state = 84 ∨ state = 116 then ascii "Stopped"
  else if state = 90 then ascii "Zombie"
  else if state = 73 then ascii "Idle"
  else ascii "Other"

def formatProcessCpu (cpuPercent : ℚ) (cap : Nat) : Bytes :=
  snprintf cap (if cpuPercent < 0 then ascii "--" else formatTenths cpuPercent ++ ascii "%")

def tableRow : Int := 8
def aboutRow (term : TerminalSize) : Int := term.rows - 9

def visible (term : TerminalSize) : Nat :=
  let lines := aboutRow term - tableRow - 1
  if lines < 4 then 4 else lines.toNat

def nameWidth (term : TerminalSize) : Nat :=
  let width := term.cols - 55
  if width < 12 then 12 else if 65 < width then 65 else width.toNat

def tableStart (term : TerminalSize) (count selected : Nat) : Nat :=
  if 0 < count ∧ visible term ≤ selected then selected - visible term + 1 else 0

structure TableLine where
  row : Int
  index : Nat
  text : Bytes

/-- `"%-8d %7s %8.1f MiB %13.13s %5lu %-*.*s"`, behind the mark of the highlighted row. -/
def lineText (highlighted : Bool) (width : Nat) (row : ProcessRow) : Bytes :=
  ascii (if highlighted then "> " else "  ") ++
    padRight 8 (formatInt row.pid) ++ ascii " " ++
    padLeft 7 (formatProcessCpu row.cpuPercent 16) ++ ascii " " ++
    padLeft 8 (formatTenths (row.rssKib.toNat / kibPerMib)) ++ ascii " MiB " ++
    padLeft 13 ((teachingStateName row.state).take 13) ++ ascii " " ++
    padLeft 5 (decimal row.threads.toNat) ++ ascii " " ++
    padRight width (row.name.take width)

def tableLoop (term : TerminalSize) (selected : Nat) :
    List ProcessRow → Nat → Int → List TableLine
  | [], _, _ => []
  | first :: rest, i, row =>
    if row < aboutRow term - 1 then
      ⟨row, i, lineText (i == selected) (nameWidth term) first⟩ ::
        tableLoop term selected rest (i + 1) (row + 1)
    else []

def tableLines (term : TerminalSize) (rows : List ProcessRow) (state : AppState) :
    List TableLine :=
  let start := tableStart term rows.length state.selected
  tableLoop term state.selected (rows.drop start) start tableRow

/-- The indices drawn follow each other, as far as there are rows and lines. -/
theorem tableLoop_indices (term : TerminalSize) (selected : Nat) (rest : List ProcessRow)
    (i : Nat) (row : Int) :
    (tableLoop term selected rest i row).map TableLine.index =
      List.range' i (min rest.length (aboutRow term - 1 - row).toNat) := by
  induction rest generalizing i row with
  | nil => simp [tableLoop]
  | cons first rest ih =>
    unfold tableLoop
    split
    · have hlines : min (first :: rest).length (aboutRow term - 1 - row).toNat =
          min rest.length (aboutRow term - 1 - (row + 1)).toNat + 1 := by
        rw [List.length_cons]
        omega
      rw [List.map_cons, ih, hlines, List.range'_succ]
    · have hnone : (aboutRow term - 1 - row).toNat = 0 := by omega
      rw [hnone, Nat.min_zero]
      rfl

theorem mem_tableLines (term : TerminalSize) (rows : List ProcessRow) (state : AppState)
    (i : Nat) :
    i ∈ (tableLines term rows state).map TableLine.index ↔
      tableStart term rows.length state.selected ≤ i ∧ i < rows.length ∧
        (i : Int) < tableStart term rows.length state.selected + (term.rows - 18) := by
  unfold tableLines
  rw [tableLoop_indices, List.mem_range'_1, List.length_drop, aboutRow, tableRow]
  omega

def OnScreen (term : TerminalSize) (rows : List ProcessRow) (state : AppState) : Prop :=
  state.selected ∈ (tableLines term rows state).map TableLine.index

/-- The table scrolls as if it had four lines where it has fewer. -/
theorem onScreen_iff {term : TerminalSize} {rows : List ProcessRow} {state : AppState}
    (hline : tableRow < aboutRow term - 1) (hselected : state.selected < rows.length) :
    OnScreen term rows state ↔ 22 ≤ term.rows ∨ (state.selected : Int) < term.rows - 18 := by
  have hvisible : visible term = if term.rows - 18 < 4 then 4 else (term.rows - 18).toNat := by
    unfold visible aboutRow tableRow
    dsimp only
    rw [show term.rows - 9 - 8 - 1 = term.rows - 18 by omega]
  unfold tableRow aboutRow at hline
  unfold OnScreen
  rw [mem_tableLines, tableStart, hvisible]
  split_ifs <;> omega

theorem usual_onScreen :
    OnScreen ⟨24, 80⟩ [emptyRow 7, emptyRow 8] { AppState.initial with selected := 1 } :=
  (onScreen_iff (by decide) (by decide)).mpr (Or.inl (by decide))

/-- Nineteen rows leave one line for the table, and the second process is below it. -/
theorem low_terminal :
    tableRow < aboutRow ⟨19, 80⟩ - 1 ∧ 1 < [emptyRow 7, emptyRow 8].length ∧
      ¬ OnScreen ⟨19, 80⟩ [emptyRow 7, emptyRow 8] { AppState.initial with selected := 1 } := by
  refine ⟨by decide, by decide, fun h => ?_⟩
  have hshown := (mem_tableLines _ _ _ _).mp h
  revert hshown
  decide

end RookieTop.RenderProcesses
