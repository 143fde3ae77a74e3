import RookieTop.Explorer
import RookieTop.ProcessQuery
import RookieTop.TerminalInput

/-! The state of the interactive program, and what the keys do to it. -/
namespace RookieTop.App

open CLib Trace Sys Cpu ProcessList CollectOverview DiagnosisBuild Explorer

def processSearchMax : Nat := 64
def noticeSize : Nat := 192
def historyMax : Nat := 90

inductive Screen where
  | overview
  | processes
  | processSearch
  | detail
  | processLearn
  | learnMenu
  | learnTopic
  | confirmTerm
  | confirmKill
  deriving DecidableEq, Repr

/-! The concepts of the lessons. A C enumeration holds any integer, and the menu
casts an index to it. -/

def teachCpu : Nat := 0
def teachMemory : Nat := 1
def teachLoad : Nat := 2
def teachDisk : Nat := 7
def teachCount : Nat := 9

structure MetricHistory where
  cpu : List ℚ
  memory : List ℚ

structure AppState where
  screen : Screen
  returnScreen : Screen
  sort : ProcessSort
  lesson : Nat
  learnSelected : Nat
  selected : Nat
  selectedPid : Int
  selectedStarttime : UInt64
  selectedDetail : ProcessDetail
  view : Overview
  viewOk : Bool
  search : Bytes
  searchDraft : Bytes
  notice : Bytes
  /-- Kept at file scope in the source. -/
  history : MetricHistory

def AppState.initial : AppState where
  screen := .overview
  returnScreen := .overview
  sort := .memory
  lesson := teachCpu
  learnSelected := 0
  selected := 0
  selectedPid := 0
  selectedStarttime := 0
  selectedDetail := ⟨⟨0, [], 0, 0, 0, 0, 0⟩, []⟩
  view := Overview.zero
  viewOk := false
  search := []
  searchDraft := []
  notice := []
  history := ⟨[], []⟩

def keyOf (c : Char) : Int := c.toNat

/-- What a full array of samples keeps is shifted down by one. -/
def pushSample (values : List ℚ) (value : ℚ) : List ℚ :=
  if values.length < historyMax then values ++ [value] else values.tail ++ [value]

def historyPush (history : MetricHistory) (view : Overview) : MetricHistory :=
  ⟨pushSample history.cpu view.cpuPercent, pushSample history.memory view.memoryPercent⟩

def diagnosisLesson (view : Overview) : Nat :=
  match (buildViewDiagnosis view).focus with
  | .cpu => teachCpu
  | .memory => teachMemory
  | .disk => teachDisk
  | .load => teachLoad
  | .healthy => teachCpu

def setNotice (state : AppState) (message : Bytes) : AppState :=
  { state with notice := snprintf noticeSize message }

def setSignalNotice (state : AppState) (result : SignalResult) (force : Bool) (name : Bytes) :
    AppState :=
  match result with
  | .ok =>
    setNotice state
      (name ++ if force then ascii " was force-killed with SIGKILL."
        else ascii " was asked to stop cleanly with SIGTERM.")
  | .permission =>
    setNotice state (ascii "RookieTop cannot stop this process with your current permissions.")
  | .reused =>
    setNotice state
      (ascii "That PID now belongs to a different process, so RookieTop cancelled the action.")
  | .gone => setNotice state (ascii "The process already exited, so there was nothing to stop.")
  | .error => setNotice state (ascii "RookieTop could not send the signal.")

def selectRow (state : AppState) (i : Nat) (row : ProcessRow) : AppState :=
  { state with selected := i, selectedPid := row.pid, selectedStarttime := row.starttime }

/-- `none` where there is no row, which no index that the explorer uses is. -/
def selectAt (state : AppState) (rows : List ProcessRow) (i : Nat) : AppState :=
  match rows[i]? with
  | none => state
  | some row => selectRow state i row

def isSelected (state : AppState) (row : ProcessRow) : Bool :=
  row.pid == state.selectedPid && row.starttime == state.selectedStarttime

def alignSelection (state : AppState) (rows : List ProcessRow) : AppState :=
  if rows.length = 0 then
    { state with selected := 0, selectedPid := 0, selectedStarttime := 0 }
  else
    match if 0 < state.selectedPid then rows.findIdx? (isSelected state) else none with
    | some i => { state with selected := i }
    | none =>
      selectAt state rows
        (if rows.length ≤ state.selected then rows.length - 1 else state.selected)

variable (env : Env)

def refreshSelectedDetail (state : AppState) : Calls (Option AppState) := do
  match ← processDetailRead env state.selectedPid with
  | none => return none
  | some detail =>
    if detail.row.starttime ≠ state.selectedStarttime then return none
    else return some { state with selectedDetail := detail }

/-- A detail of another instance is left in place, behind the list of processes. -/
def openSelectedDetail (state : AppState) (row : ProcessRow) (screen : Screen) :
    Calls AppState := do
  let state :=
    { state with selectedPid := row.pid, selectedStarttime := row.starttime }
  let changed :=
    setNotice state (ascii "The process changed or exited before RookieTop could open it.")
  match ← processDetailRead env row.pid with
  | none => return { changed with screen := .processes }
  | some detail =>
    if detail.row.starttime = row.starttime then
      return { state with selectedDetail := detail, screen := screen }
    else return { changed with selectedDetail := detail, screen := .processes }

def confirmScreen (force : Bool) : Screen := if force then .confirmKill else .confirmTerm

def openConfirmFromDetail (state : AppState) (force : Bool) : Calls AppState := do
  match ← refreshSelectedDetail env state with
  | none =>
    return { setNotice state
      (ascii "The process exited or that PID now belongs to something else.") with
      screen := .processes }
  | some state => return { state with screen := confirmScreen force }

def confirmSignal (force : Bool) : Int := if force then sigkill else sigterm

def handleSignalConfirm (state : AppState) (force : Bool) : Calls (AppState × List KillCall) :=
  let row := state.selectedDetail.row
  if row.pid = env.self then
    pure ({ setNotice state (ascii "RookieTop will not stop itself.") with screen := .processes },
      [])
  else do
    let (result, kill) ← processSendSignal env row.pid row.starttime (confirmSignal force)
    return ({ setSignalNotice state result force row.name with screen := .processes },
      kill.toList)

def refreshOverview (state : AppState) : Calls (Option AppState) := do
  match ← collectOverview env with
  | none => return none
  | some view =>
    return some
      { state with view := view, viewOk := true, history := historyPush state.history view }

def prepareLearnFromView (state : AppState) : AppState :=
  let lesson := diagnosisLesson state.view
  { state with
    lesson := lesson, learnSelected := lesson, returnScreen := .overview, screen := .learnMenu }

def beginProcessSearch (state : AppState) : AppState :=
  { state with
    searchDraft := snprintf processSearchMax state.search, screen := .processSearch }

def applyProcessSearch (state : AppState) : AppState :=
  { state with
    search := snprintf processSearchMax state.searchDraft
    selected := 0
    selectedPid := 0
    selectedStarttime := 0
    notice := []
    screen := .processes }

def editProcessSearch (state : AppState) (key : Int) : AppState :=
  let len := state.searchDraft.length
  if key = 8 ∨ key = 127 then
    if 0 < len then { state with searchDraft := state.searchDraft.take (len - 1) } else state
  else if 0 ≤ key ∧ key ≤ 255 ∧ isprint key.toNat.toUInt8 ∧ len + 1 < processSearchMax then
    { state with searchDraft := state.searchDraft ++ [key.toNat.toUInt8] }
  else state

theorem refreshSelectedDetail_some {state state' : AppState} {n : Nat}
    (h : (refreshSelectedDetail env state).value n = some state') :
    ∃ detail, (processDetailRead env state.selectedPid).value n = some detail ∧
      detail.row.pid = state.selectedPid ∧ detail.row.starttime = state.selectedStarttime ∧
      state' = { state with selectedDetail := detail } := by
  unfold refreshSelectedDetail at h
  simp only [Calls.value_bind] at h
  cases hread : (processDetailRead env state.selectedPid).value n with
  | none => simp [hread] at h
  | some detail =>
    simp only [hread] at h
    split_ifs at h with hother
    · cases h
    · cases Option.some.inj h
      exact ⟨detail, rfl, processDetailRead_pid env hread, not_not.mp hother, rfl⟩

theorem refreshSelectedDetail_after_le {state : AppState} {n : Nat} :
    (processDetailRead env state.selectedPid).after n ≤
      (refreshSelectedDetail env state).after n := by
  unfold refreshSelectedDetail
  simp only [Calls.after_bind]
  exact Calls.le_after _ _

theorem selectAt_eq (state : AppState) (rows : List ProcessRow) (i : Nat) :
    ∃ selected pid starttime, selectAt state rows i =
      { state with selected := selected, selectedPid := pid, selectedStarttime := starttime } := by
  unfold selectAt
  split
  · exact ⟨_, _, _, rfl⟩
  · exact ⟨_, _, _, rfl⟩

theorem alignSelection_eq (state : AppState) (rows : List ProcessRow) :
    ∃ selected pid starttime, alignSelection state rows =
      { state with selected := selected, selectedPid := pid, selectedStarttime := starttime } := by
  unfold alignSelection
  split
  · exact ⟨_, _, _, rfl⟩
  · split
    · exact ⟨_, _, _, rfl⟩
    · exact selectAt_eq state rows _

theorem openSelectedDetail_eq (state : AppState) (row : ProcessRow) (screen : Screen) (n : Nat) :
    ∃ detail notice opened, (openSelectedDetail env state row screen).value n =
        { state with
          selectedPid := row.pid
          selectedStarttime := row.starttime
          selectedDetail := detail
          notice := notice
          screen := opened } ∧
      (opened = screen ∨ opened = .processes) := by
  unfold openSelectedDetail
  simp only [Calls.value_bind]
  cases (processDetailRead env row.pid).value n with
  | none => exact ⟨_, _, _, rfl, Or.inr rfl⟩
  | some detail =>
    dsimp only
    split_ifs
    · exact ⟨_, _, _, rfl, Or.inl rfl⟩
    · exact ⟨_, _, _, rfl, Or.inr rfl⟩

theorem openConfirmFromDetail_eq (state : AppState) (force : Bool) (n : Nat) :
    ∃ detail notice opened, (openConfirmFromDetail env state force).value n =
        { state with selectedDetail := detail, notice := notice, screen := opened } ∧
      (opened = confirmScreen force ∨ opened = .processes) := by
  unfold openConfirmFromDetail
  simp only [Calls.value_bind]
  cases hrefresh : (refreshSelectedDetail env state).value n with
  | none => exact ⟨_, _, _, rfl, Or.inr rfl⟩
  | some refreshed =>
    obtain ⟨detail, -, -, -, rfl⟩ := refreshSelectedDetail_some env hrefresh
    exact ⟨_, _, _, rfl, Or.inl rfl⟩

theorem refreshOverview_some {state refreshed : AppState} {n : Nat}
    (h : (refreshOverview env state).value n = some refreshed) :
    ∃ view, (collectOverview env).value n = some view ∧ refreshed =
      { state with view := view, viewOk := true, history := historyPush state.history view } := by
  unfold refreshOverview at h
  simp only [Calls.value_bind] at h
  cases hview : (collectOverview env).value n with
  | none => simp [hview] at h
  | some view =>
    simp only [hview, Calls.value_pure, Option.some.injEq] at h
    exact ⟨view, rfl, h.symm⟩

structure Opened (state : AppState) (row : ProcessRow) (screen : Screen) (state' : AppState) :
    Prop where
  pid : state'.selectedPid = row.pid
  starttime : state'.selectedStarttime = row.starttime
  screen : state'.screen = screen ∨ state'.screen = .processes
  returnScreen : state'.returnScreen = state.returnScreen

theorem openSelectedDetail_opened (state : AppState) (row : ProcessRow) (screen : Screen)
    (n : Nat) :
    Opened state row screen ((openSelectedDetail env state row screen).value n) := by
  obtain ⟨detail, notice, opened, heq, hopened⟩ := openSelectedDetail_eq env state row screen n
  rw [heq]
  exact ⟨rfl, rfl, hopened, rfl⟩

theorem openSelectedDetail_read {state : AppState} {row : ProcessRow} {screen : Screen} {n : Nat}
    (h : ((openSelectedDetail env state row screen).value n).screen ≠ .processes) :
    ∃ detail, (processDetailRead env row.pid).value n = some detail ∧
      detail.row.starttime = row.starttime ∧
      (processDetailRead env row.pid).after n ≤ (openSelectedDetail env state row screen).after n := by
  unfold openSelectedDetail at h ⊢
  simp only [Calls.value_bind, Calls.after_bind] at h ⊢
  cases hread : (processDetailRead env row.pid).value n with
  | none => simp [hread] at h
  | some detail =>
    simp only [hread] at h ⊢
    split_ifs at h ⊢ with hsame
    · exact ⟨detail, rfl, hsame, Calls.le_after _ _⟩
    · exact absurd rfl h

theorem openConfirmFromDetail_opened (state : AppState) (force : Bool) (n : Nat) :
    let state' := (openConfirmFromDetail env state force).value n
    state'.selectedPid = state.selectedPid ∧
      state'.selectedStarttime = state.selectedStarttime ∧
      (state'.screen = confirmScreen force ∨ state'.screen = .processes) ∧
      state'.returnScreen = state.returnScreen := by
  obtain ⟨detail, notice, opened, heq, hopened⟩ := openConfirmFromDetail_eq env state force n
  rw [heq]
  exact ⟨rfl, rfl, hopened, rfl⟩

theorem setSignalNotice_eq (state : AppState) (result : SignalResult) (force : Bool)
    (name : Bytes) :
    ∃ notice, setSignalNotice state result force name = { state with notice := notice } := by
  cases result <;> exact ⟨_, rfl⟩

theorem handleSignalConfirm_state (state : AppState) (force : Bool) (n : Nat) :
    ∃ notice, ((handleSignalConfirm env state force).value n).1 =
      { state with notice := notice, screen := .processes } := by
  unfold handleSignalConfirm
  dsimp only
  split_ifs
  · exact ⟨_, rfl⟩
  · obtain ⟨notice, heq⟩ := setSignalNotice_eq state
      ((processSendSignal env state.selectedDetail.row.pid state.selectedDetail.row.starttime
        (confirmSignal force)).value n).1 force state.selectedDetail.row.name
    exact ⟨notice, by simp only [Calls.value_bind, Calls.value_pure, heq]⟩

/-- The signal goes to the process on display, never to the program itself. -/
theorem handleSignalConfirm_kills (state : AppState) (force : Bool) (n : Nat) :
    let kills := ((handleSignalConfirm env state force).value n).2
    kills.length ≤ 1 ∧
      ∀ call ∈ kills, call.pid ≠ env.self ∧ call.pid = state.selectedDetail.row.pid ∧
        call.starttime = state.selectedDetail.row.starttime ∧
        call.signal = confirmSignal force := by
  unfold handleSignalConfirm
  dsimp only
  split_ifs with hself
  · simp
  · simp only [Calls.value_bind, Calls.value_pure]
    cases hsend : ((processSendSignal env state.selectedDetail.row.pid
      state.selectedDetail.row.starttime (confirmSignal force)).value n).2 with
    | none => simp
    | some call =>
      obtain ⟨rfl, -⟩ := processSendSignal_some env hsend
      simp [hself]

end RookieTop.App
