import RookieTop.App
import Mathlib.Logic.Function.Iterate

/-! The main loop. In each pass the current screen is refreshed and drawn, and one
key is read and acted on. -/
namespace RookieTop.RunInteractive

open CLib Trace Sys ProcessList CollectOverview Explorer ProcessQuery TerminalInput App

inductive Drawing where
  | overview (view : Overview)
  | processes (rows : List ProcessRow) (total : Nat) (state : AppState)
  | processSearch (state : AppState)
  | detail (shown : ProcessDetail)
  | processLearning (shown : ProcessDetail)
  | learnMenu (state : AppState)
  | lesson (state : AppState)
  | confirm (shown : ProcessDetail) (force : Bool)

/-- A drawing for a terminal of some size, flushed at some time. -/
structure Frame where
  time : Nat
  term : TerminalSize
  drawing : Drawing

/-- One pass of the loop: the state it leaves, what it drew, the key it read and
the signals it sent. A pass fails where the source returns 1 at once; one that
ends in `continue` reads no key. -/
structure Pass where
  state : AppState
  consumed : Nat
  frame : Option Frame
  key : Int
  kills : List KillCall
  failed : Bool

variable (env : Env)

def prompt (term : TerminalSize) (drawing : Drawing) (consumed : Nat) :
    Calls (Frame × Int × Nat) := do
  let time ← Calls.call id
  let (key, consumed) ← terminalInputReadKey env consumed
  return (⟨time, term, drawing⟩, key, consumed)

def overviewKey (state : AppState) (key : Int) : AppState :=
  if key = keyOf 'p' then { state with screen := .processes, notice := [] }
  else if key = keyOf '?' ∨ key = keyOf 'l' ∨ key = keyOf 'L' then prepareLearnFromView state
  else state

def overviewPass (term : TerminalSize) (state : AppState) (consumed : Nat) : Calls Pass := do
  match ← refreshOverview env state with
  | none => return ⟨{ state with viewOk := false }, consumed, none, inputNone, [], true⟩
  | some state =>
    let (frame, key, consumed) ← prompt env term (.overview state.view) consumed
    return ⟨overviewKey state key, consumed, some frame, key, [], false⟩

/-- `none` where there is no row, which no index that the explorer uses is. -/
def openAt (state : AppState) (rows : List ProcessRow) (screen : Screen) : Calls AppState :=
  match rows[state.selected]? with
  | none => pure state
  | some row => openSelectedDetail env state row screen

def processesKey (state : AppState) (rows : List ProcessRow) (key : Int) : Calls AppState :=
  if key = inputUp ∧ 0 < rows.length then
    pure (selectAt state rows (if 0 < state.selected then state.selected - 1 else state.selected))
  else if key = inputDown ∧ 0 < rows.length then
    pure (selectAt state rows
      (if state.selected + 1 < rows.length then state.selected + 1 else state.selected))
  else if key = inputEnter ∧ 0 < rows.length then openAt env state rows .detail
  else if key = keyOf '?' ∧ 0 < rows.length then openAt env state rows .processLearn
  else if key = keyOf 'k' ∧ 0 < rows.length then openAt env state rows .confirmTerm
  else if key = keyOf 'K' ∧ 0 < rows.length then openAt env state rows .confirmKill
  else if key = keyOf '/' then pure (beginProcessSearch state)
  else if key = keyOf 'c' then pure { state with sort := .cpu }
  else if key = keyOf 'm' then pure { state with sort := .memory }
  else if key = keyOf 'p' then pure { state with sort := .pid }
  else if key = keyOf 'n' then pure { state with sort := .name }
  else if key = keyOf 'l' ∨ key = keyOf 'L' then
    pure { state with returnScreen := .processes, screen := .learnMenu }
  else if key = inputEscape then pure { state with screen := .overview }
  else pure state

def shownRows (state : AppState) (rows : List ProcessRow) : List ProcessRow :=
  let kept := processQueryFilter rows state.search
  sortProcesses env (kept.1.take kept.2) state.sort

def noticeSampled (state : AppState) (sampled : Option (List ProcessRow)) : AppState :=
  if sampled.isNone then
    setNotice state (ascii "RookieTop could not read the process list.")
  else state

def showProcesses (term : TerminalSize) (state : AppState) (rows : List ProcessRow)
    (total consumed : Nat) : Calls Pass := do
  let (frame, key, consumed) ← prompt env term (.processes rows total state) consumed
  let state ← processesKey env state rows key
  return ⟨state, consumed, some frame, key, [], false⟩

def processesPass (term : TerminalSize) (state : AppState) (consumed : Nat) : Calls Pass := do
  let sampled ← sampleProcessRows env
  let state := noticeSampled state sampled
  let rows := shownRows env state (sampled.getD [])
  showProcesses env term (alignSelection state rows) rows (sampled.getD []).length consumed

def searchKey (state : AppState) (key : Int) : AppState :=
  if key = inputEnter then applyProcessSearch state
  else if key = inputEscape then { state with screen := .processes }
  else editProcessSearch state key

/-- The pass of a screen that shows the selected process: `draw` what was refreshed,
then `act` on the key. Where the process is gone, back to the list without a frame. -/
def detailPass (draw : ProcessDetail → Drawing)
    (act : AppState → Int → Calls (AppState × List KillCall)) (term : TerminalSize)
    (state : AppState) (consumed : Nat) : Calls Pass := do
  match ← refreshSelectedDetail env state with
  | none =>
    let state :=
      { setNotice state (ascii "The process exited or that PID was reused.") with
        screen := .processes }
    return ⟨state, consumed, none, inputNone, [], false⟩
  | some state =>
    let (frame, key, consumed) ← prompt env term (draw state.selectedDetail) consumed
    let (state, kills) ← act state key
    return ⟨state, consumed, some frame, key, kills, false⟩

def detailKey (state : AppState) (key : Int) : Calls (AppState × List KillCall) := do
  if key = keyOf '?' then return ({ state with screen := .processLearn }, [])
  if key = keyOf 'k' then return (← openConfirmFromDetail env state false, [])
  if key = keyOf 'K' then return (← openConfirmFromDetail env state true, [])
  if key = inputEscape then return ({ state with screen := .processes }, [])
  return (state, [])

def processLearnKey (state : AppState) (key : Int) : Calls (AppState × List KillCall) := do
  if key = keyOf 'k' then return (← openConfirmFromDetail env state false, [])
  if key = keyOf 'K' then return (← openConfirmFromDetail env state true, [])
  if key = inputEscape then return ({ state with screen := .processes }, [])
  return (state, [])

def confirmKey (force : Bool) (state : AppState) (key : Int) :
    Calls (AppState × List KillCall) := do
  if key = keyOf 'y' ∨ key = keyOf 'Y' then handleSignalConfirm env state force
  else if key = keyOf 'n' ∨ key = keyOf 'N' ∨ key = inputEscape then
    return ({ state with screen := .processes }, [])
  else return (state, [])

def learnMenuKey (state : AppState) (key : Int) : AppState :=
  if key = inputUp ∧ 0 < state.learnSelected then
    { state with learnSelected := state.learnSelected - 1 }
  else if key = inputDown ∧ state.learnSelected + 1 < teachCount then
    { state with learnSelected := state.learnSelected + 1 }
  else if key = inputEnter then
    { state with lesson := state.learnSelected, screen := .learnTopic }
  else if key = inputEscape then { state with screen := state.returnScreen }
  else state

def learnTopicKey (state : AppState) (key : Int) : AppState :=
  if key = keyOf 'n' ∨ key = keyOf 'N' then
    let lesson := (state.lesson + 1) % teachCount
    { state with lesson := lesson, learnSelected := lesson }
  else if key = keyOf 'b' ∨ key = keyOf 'B' then
    let lesson := (state.lesson + teachCount - 1) % teachCount
    { state with lesson := lesson, learnSelected := lesson }
  else if key = inputEscape then { state with screen := .learnMenu }
  else state

def plainPass (drawing : Drawing) (act : AppState → Int → AppState) (term : TerminalSize)
    (state : AppState) (consumed : Nat) : Calls Pass := do
  let (frame, key, consumed) ← prompt env term drawing consumed
  return ⟨act state key, consumed, some frame, key, [], false⟩

def screenPass (term : TerminalSize) (state : AppState) (consumed : Nat) : Calls Pass :=
  match state.screen with
  | .overview => overviewPass env term state consumed
  | .processes => processesPass env term state consumed
  | .processSearch => plainPass env (.processSearch state) searchKey term state consumed
  | .detail => detailPass env .detail (detailKey env) term state consumed
  | .processLearn => detailPass env .processLearning (processLearnKey env) term state consumed
  | .learnMenu => plainPass env (.learnMenu state) learnMenuKey term state consumed
  | .learnTopic => plainPass env (.lesson state) learnTopicKey term state consumed
  | .confirmTerm => detailPass env (.confirm · false) (confirmKey env false) term state consumed
  | .confirmKill => detailPass env (.confirm · true) (confirmKey env true) term state consumed

def loopPass (state : AppState) (consumed : Nat) : Calls Pass := do
  let term ← Calls.call env.window
  screenPass env term state consumed

/-- Between two passes: the state, the time, the bytes consumed from the terminal,
and the exit code once the loop has been left. -/
structure Session where
  state : AppState
  now : Nat
  consumed : Nat
  exit : Option Int

def Session.initial : Session := ⟨AppState.initial, 0, 0, none⟩

def exitAfter (screenBefore : Screen) (pass : Pass) : Option Int :=
  if pass.failed ∨ pass.key < 0 then some 1
  else if screenBefore ≠ .processSearch ∧ (pass.key = keyOf 'q' ∨ pass.key = keyOf 'Q') then some 0
  else none

def passOf (s : Session) : Option Pass :=
  if s.exit.isSome ∨ env.stopped s.now then none
  else some ((loopPass env s.state s.consumed).value s.now)

def step (s : Session) : Session :=
  match passOf env s with
  | none => { s with exit := some (s.exit.getD 0) }
  | some pass =>
    { state := pass.state
      now := (loopPass env s.state s.consumed).after s.now
      consumed := pass.consumed
      exit := exitAfter s.state.screen pass }

def runInteractive (n : Nat) : Session := (step env)^[n] Session.initial

def passAt (n : Nat) : Option Pass := passOf env (runInteractive env n)

end RookieTop.RunInteractive
