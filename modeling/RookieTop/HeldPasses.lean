import RookieTop.Holdings
import RookieTop.Selection

/-! The passes of the main loop with what they hold, and the ledger of a whole run. -/
namespace RookieTop.HeldPasses

open CLib Trace Sys ProcessList CollectOverview Explorer ProcessQuery TerminalInput App
  RunInteractive Selection Handles Collectors

open scoped Trace.Held

variable (env : Env)

def refreshSelectedDetail (state : AppState) : Held Handle (Option AppState) := do
  match ← Handles.processDetailRead env state.selectedPid with
  | none => return none
  | some detail =>
    if detail.row.starttime ≠ state.selectedStarttime then return none
    else return some { state with selectedDetail := detail }

def openSelectedDetail (state : AppState) (block : Option Block) (i : Nat) (row : ProcessRow)
    (screen : Screen) : Held Handle AppState := do
  useAt block i
  let state :=
    { state with selectedPid := row.pid, selectedStarttime := row.starttime }
  let changed :=
    setNotice state (ascii "The process changed or exited before RookieTop could open it.")
  match ← Handles.processDetailRead env row.pid with
  | none => return { changed with screen := .processes }
  | some detail =>
    useAt block i
    if detail.row.starttime = row.starttime then
      return { state with selectedDetail := detail, screen := screen }
    else return { changed with selectedDetail := detail, screen := .processes }

def openConfirmFromDetail (state : AppState) (force : Bool) : Held Handle AppState := do
  match ← refreshSelectedDetail env state with
  | none =>
    return { setNotice state
      (ascii "The process exited or that PID now belongs to something else.") with
      screen := .processes }
  | some state => return { state with screen := confirmScreen force }

def handleSignalConfirm (state : AppState) (force : Bool) :
    Held Handle (AppState × List KillCall) :=
  let row := state.selectedDetail.row
  if row.pid = env.self then
    pure ({ setNotice state (ascii "RookieTop will not stop itself.") with screen := .processes },
      [])
  else do
    let (result, kill) ←
      Handles.processSendSignal env row.pid row.starttime (confirmSignal force)
    return ({ setSignalNotice state result force row.name with screen := .processes },
      kill.toList)

def refreshOverview (state : AppState) : Held Handle (Option AppState) := do
  match ← Collectors.collectOverview env with
  | none => return none
  | some view =>
    return some
      { state with view := view, viewOk := true, history := historyPush state.history view }

def overviewPass (term : TerminalSize) (state : AppState) (consumed : Nat) : Held Handle Pass := do
  match ← refreshOverview env state with
  | none => return ⟨{ state with viewOk := false }, consumed, none, inputNone, [], true⟩
  | some state =>
    let (frame, key, consumed) ←
      Held.ofCalls (prompt env term (.overview state.view) consumed)
    return ⟨overviewKey state key, consumed, some frame, key, [], false⟩

def openAt (state : AppState) (block : Option Block) (rows : List ProcessRow) (screen : Screen) :
    Held Handle AppState :=
  match rows[state.selected]? with
  | none => do
    useAt block state.selected
    return state
  | some row => openSelectedDetail env state block state.selected row screen

def selectAt (state : AppState) (block : Option Block) (rows : List ProcessRow) (i : Nat) :
    Held Handle AppState := do
  useAt block i
  return App.selectAt state rows i

def processesKey (state : AppState) (block : Option Block) (rows : List ProcessRow) (key : Int) :
    Held Handle AppState :=
  if key = inputUp ∧ 0 < rows.length then
    selectAt state block rows (if 0 < state.selected then state.selected - 1 else state.selected)
  else if key = inputDown ∧ 0 < rows.length then
    selectAt state block rows
      (if state.selected + 1 < rows.length then state.selected + 1 else state.selected)
  else if key = inputEnter ∧ 0 < rows.length then openAt env state block rows .detail
  else if key = keyOf '?' ∧ 0 < rows.length then openAt env state block rows .processLearn
  else if key = keyOf 'k' ∧ 0 < rows.length then openAt env state block rows .confirmTerm
  else if key = keyOf 'K' ∧ 0 < rows.length then openAt env state block rows .confirmKill
  else if key = keyOf '/' then pure (beginProcessSearch state)
  else if key = keyOf 'c' then pure { state with sort := .cpu }
  else if key = keyOf 'm' then pure { state with sort := .memory }
  else if key = keyOf 'p' then pure { state with sort := .pid }
  else if key = keyOf 'n' then pure { state with sort := .name }
  else if key = keyOf 'l' ∨ key = keyOf 'L' then
    pure { state with returnScreen := .processes, screen := .learnMenu }
  else if key = inputEscape then pure { state with screen := .overview }
  else pure state

def showProcesses (term : TerminalSize) (state : AppState) (block : Option Block)
    (all : List ProcessRow) (consumed : Nat) : Held Handle Pass := do
  let rows := shownRows env state all
  useFirst block (if state.search.isEmpty then 0 else all.length)
  useFirst block rows.length
  let state := alignSelection state rows
  let (frame, key, consumed) ←
    Held.ofCalls (prompt env term (.processes rows all.length state) consumed)
  let state ← processesKey env state block rows key
  freeAny block
  return ⟨state, consumed, some frame, key, [], false⟩

def processesPass (term : TerminalSize) (state : AppState) (consumed : Nat) :
    Held Handle Pass := do
  let sampled ← Collectors.sampleProcessRows env
  showProcesses env term (noticeSampled state (sampled.map Prod.snd)) (sampled.bind Prod.fst)
    ((sampled.map Prod.snd).getD []) consumed

def detailPass (draw : ProcessDetail → Drawing)
    (act : AppState → Int → Held Handle (AppState × List KillCall)) (term : TerminalSize)
    (state : AppState) (consumed : Nat) : Held Handle Pass := do
  match ← refreshSelectedDetail env state with
  | none =>
    let state :=
      { setNotice state (ascii "The process exited or that PID was reused.") with
        screen := .processes }
    return ⟨state, consumed, none, inputNone, [], false⟩
  | some state =>
    let (frame, key, consumed) ←
      Held.ofCalls (prompt env term (draw state.selectedDetail) consumed)
    let (state, kills) ← act state key
    return ⟨state, consumed, some frame, key, kills, false⟩

def detailKey (state : AppState) (key : Int) : Held Handle (AppState × List KillCall) :=
  if key = keyOf '?' then pure ({ state with screen := .processLearn }, [])
  else if key = keyOf 'k' then do return (← openConfirmFromDetail env state false, [])
  else if key = keyOf 'K' then do return (← openConfirmFromDetail env state true, [])
  else if key = inputEscape then pure ({ state with screen := .processes }, [])
  else pure (state, [])

def processLearnKey (state : AppState) (key : Int) : Held Handle (AppState × List KillCall) :=
  if key = keyOf 'k' then do return (← openConfirmFromDetail env state false, [])
  else if key = keyOf 'K' then do return (← openConfirmFromDetail env state true, [])
  else if key = inputEscape then pure ({ state with screen := .processes }, [])
  else pure (state, [])

def confirmKey (force : Bool) (state : AppState) (key : Int) :
    Held Handle (AppState × List KillCall) :=
  if key = keyOf 'y' ∨ key = keyOf 'Y' then handleSignalConfirm env state force
  else if key = keyOf 'n' ∨ key = keyOf 'N' ∨ key = inputEscape then
    pure ({ state with screen := .processes }, [])
  else pure (state, [])

def screenPass (term : TerminalSize) (state : AppState) (consumed : Nat) : Held Handle Pass :=
  match state.screen with
  | .overview => overviewPass env term state consumed
  | .processes => processesPass env term state consumed
  | .processSearch =>
    Held.ofCalls (plainPass env (.processSearch state) searchKey term state consumed)
  | .detail => detailPass env .detail (detailKey env) term state consumed
  | .processLearn => detailPass env .processLearning (processLearnKey env) term state consumed
  | .learnMenu => Held.ofCalls (plainPass env (.learnMenu state) learnMenuKey term state consumed)
  | .learnTopic => Held.ofCalls (plainPass env (.lesson state) learnTopicKey term state consumed)
  | .confirmTerm => detailPass env (.confirm · false) (confirmKey env false) term state consumed
  | .confirmKill => detailPass env (.confirm · true) (confirmKey env true) term state consumed

def loopPass (state : AppState) (consumed : Nat) : Held Handle Pass := do
  let term ← Held.ofCalls (Calls.call env.window)
  screenPass env term state consumed

/-- What the pass after a session does with what it holds, if there is a pass. -/
def passEvents (s : Session) : List (Event Handle) :=
  if s.exit.isSome ∨ env.stopped s.now then [] else (loopPass env s.state s.consumed).events s.now

def ledger (n : Nat) : List (Event Handle) :=
  (List.range n).flatMap fun i => passEvents env (runInteractive env i)

theorem refreshSelectedDetail_calls (state : AppState) :
    (refreshSelectedDetail env state).calls = App.refreshSelectedDetail env state := by
  refine Held.calls_bind_congr (processDetailRead_calls env _) fun detail => ?_
  cases detail with
  | none => rfl
  | some detail => exact Held.calls_ite _ _ _

theorem openSelectedDetail_calls (state : AppState) (block : Option Block) (i : Nat)
    (row : ProcessRow) (screen : Screen) :
    (openSelectedDetail env state block i row screen).calls =
      App.openSelectedDetail env state row screen := by
  unfold openSelectedDetail
  rw [Held.calls_bind, useAt_calls, pure_bind]
  refine Held.calls_bind_congr (processDetailRead_calls env _) fun detail => ?_
  cases detail with
  | none => rfl
  | some detail =>
    dsimp only
    rw [Held.calls_bind, useAt_calls, pure_bind]
    exact Held.calls_ite _ _ _

theorem openConfirmFromDetail_calls (state : AppState) (force : Bool) :
    (openConfirmFromDetail env state force).calls = App.openConfirmFromDetail env state force := by
  refine Held.calls_bind_congr (refreshSelectedDetail_calls env state) fun refreshed => ?_
  cases refreshed <;> rfl

theorem handleSignalConfirm_calls (state : AppState) (force : Bool) :
    (handleSignalConfirm env state force).calls = App.handleSignalConfirm env state force := by
  unfold handleSignalConfirm App.handleSignalConfirm
  dsimp only
  rw [Held.calls_ite]
  refine if_congr Iff.rfl rfl ?_
  exact Held.calls_bind_congr (processSendSignal_calls env _ _ _) fun _ => rfl

theorem refreshOverview_calls (state : AppState) :
    (refreshOverview env state).calls = App.refreshOverview env state := by
  refine Held.calls_bind_congr (collectOverview_calls env) fun view => ?_
  cases view <;> rfl

theorem overviewPass_calls (term : TerminalSize) (state : AppState) (consumed : Nat) :
    (overviewPass env term state consumed).calls =
      RunInteractive.overviewPass env term state consumed := by
  refine Held.calls_bind_congr (refreshOverview_calls env state) fun refreshed => ?_
  cases refreshed <;> rfl

theorem openAt_calls (state : AppState) (block : Option Block) (rows : List ProcessRow)
    (screen : Screen) :
    (openAt env state block rows screen).calls = RunInteractive.openAt env state rows screen := by
  unfold openAt RunInteractive.openAt
  cases rows[state.selected]? with
  | none => rfl
  | some row => exact openSelectedDetail_calls env state block _ row screen

theorem selectAt_calls (state : AppState) (block : Option Block) (rows : List ProcessRow)
    (i : Nat) : (selectAt state block rows i).calls = pure (App.selectAt state rows i) := rfl

theorem processesKey_calls (state : AppState) (block : Option Block) (rows : List ProcessRow)
    (key : Int) :
    (processesKey env state block rows key).calls =
      RunInteractive.processesKey env state rows key := by
  unfold processesKey RunInteractive.processesKey
  simp only [Held.calls_ite, selectAt_calls, openAt_calls, Held.calls_pure]

theorem showProcesses_calls (term : TerminalSize) (state : AppState) (block : Option Block)
    (all : List ProcessRow) (consumed : Nat) :
    (showProcesses env term state block all consumed).calls =
      RunInteractive.showProcesses env term (alignSelection state (shownRows env state all))
        (shownRows env state all) all.length consumed := by
  unfold showProcesses
  simp only [Held.calls_bind, useFirst_calls, freeAny_calls, processesKey_calls, pure_bind]
  rfl

theorem processesPass_calls (term : TerminalSize) (state : AppState) (consumed : Nat) :
    (processesPass env term state consumed).calls =
      RunInteractive.processesPass env term state consumed := by
  unfold processesPass
  rw [Held.calls_bind]
  refine sampleProcessRows_calls env ?_ fun block rows => ?_
  · exact showProcesses_calls env term _ none [] consumed
  · exact showProcesses_calls env term _ block rows consumed

theorem detailPass_calls {draw : ProcessDetail → Drawing}
    {act : AppState → Int → Held Handle (AppState × List KillCall)}
    {plain : AppState → Int → Calls (AppState × List KillCall)}
    (hact : ∀ state key, (act state key).calls = plain state key) (term : TerminalSize)
    (state : AppState) (consumed : Nat) :
    (detailPass env draw act term state consumed).calls =
      RunInteractive.detailPass env draw plain term state consumed := by
  refine Held.calls_bind_congr (refreshSelectedDetail_calls env state) fun refreshed => ?_
  cases refreshed with
  | none => rfl
  | some state =>
    refine Held.calls_bind_congr rfl fun prompted => ?_
    exact Held.calls_bind_congr (hact _ _) fun _ => rfl

theorem detailKey_calls (state : AppState) (key : Int) :
    (detailKey env state key).calls = RunInteractive.detailKey env state key := by
  unfold detailKey RunInteractive.detailKey
  simp only [Held.calls_ite, Held.calls_bind, Held.calls_pure, openConfirmFromDetail_calls]

theorem processLearnKey_calls (state : AppState) (key : Int) :
    (processLearnKey env state key).calls = RunInteractive.processLearnKey env state key := by
  unfold processLearnKey RunInteractive.processLearnKey
  simp only [Held.calls_ite, Held.calls_bind, Held.calls_pure, openConfirmFromDetail_calls]

theorem confirmKey_calls (force : Bool) (state : AppState) (key : Int) :
    (confirmKey env force state key).calls = RunInteractive.confirmKey env force state key := by
  unfold confirmKey RunInteractive.confirmKey
  simp only [Held.calls_ite, Held.calls_pure, handleSignalConfirm_calls]

/-- A pass with its files, directories and blocks makes the calls of the pass without
them, in their order, and comes to the same end. -/
theorem loopPass_calls (state : AppState) (consumed : Nat) :
    (loopPass env state consumed).calls = RunInteractive.loopPass env state consumed := by
  refine Held.calls_bind_congr rfl fun term => ?_
  unfold screenPass RunInteractive.screenPass
  cases state.screen with
  | overview => exact overviewPass_calls env term state consumed
  | processes => exact processesPass_calls env term state consumed
  | processSearch => rfl
  | detail => exact detailPass_calls env (detailKey_calls env) term state consumed
  | processLearn => exact detailPass_calls env (processLearnKey_calls env) term state consumed
  | learnMenu => rfl
  | learnTopic => rfl
  | confirmTerm => exact detailPass_calls env (confirmKey_calls env false) term state consumed
  | confirmKill => exact detailPass_calls env (confirmKey_calls env true) term state consumed

theorem refreshSelectedDetail_balanced (state : AppState) :
    Balanced Handle.born (refreshSelectedDetail env state) := by
  refine (processDetailRead_balanced env _).bind fun detail => ?_
  cases detail with
  | none => exact balanced_pure _
  | some detail => exact (balanced_pure _).ite (balanced_pure _)

theorem openConfirmFromDetail_balanced (state : AppState) (force : Bool) :
    Balanced Handle.born (openConfirmFromDetail env state force) :=
  (refreshSelectedDetail_balanced env state).bind fun refreshed => by
    cases refreshed <;> exact balanced_pure _

theorem handleSignalConfirm_balanced (state : AppState) (force : Bool) :
    Balanced Handle.born (handleSignalConfirm env state force) :=
  (balanced_pure _).ite ((processSendSignal_balanced env _ _ _).bind fun _ => balanced_pure _)

theorem overviewPass_balanced (term : TerminalSize) (state : AppState) (consumed : Nat) :
    Balanced Handle.born (overviewPass env term state consumed) := by
  refine Balanced.bind ?_ fun refreshed => ?_
  · refine (collectOverview_balanced env).bind fun view => ?_
    cases view <;> exact balanced_pure _
  · cases refreshed with
    | none => exact balanced_pure _
    | some state => exact Balanced.bind (triple_keeps _) fun _ => balanced_pure _

theorem detailPass_balanced {draw : ProcessDetail → Drawing}
    {act : AppState → Int → Held Handle (AppState × List KillCall)}
    (hact : ∀ state key, Balanced Handle.born (act state key)) (term : TerminalSize)
    (state : AppState) (consumed : Nat) :
    Balanced Handle.born (detailPass env draw act term state consumed) := by
  refine (refreshSelectedDetail_balanced env state).bind fun refreshed => ?_
  cases refreshed with
  | none => exact balanced_pure _
  | some state =>
    refine Balanced.bind (triple_keeps _) fun prompted => ?_
    exact (hact _ _).bind fun _ => balanced_pure _

theorem detailKey_balanced (state : AppState) (key : Int) :
    Balanced Handle.born (detailKey env state key) := by
  refine (balanced_pure _).ite (Balanced.ite ?_ (Balanced.ite ?_ ?_))
  · exact (openConfirmFromDetail_balanced env state false).bind fun _ => balanced_pure _
  · exact (openConfirmFromDetail_balanced env state true).bind fun _ => balanced_pure _
  · exact (balanced_pure _).ite (balanced_pure _)

theorem processLearnKey_balanced (state : AppState) (key : Int) :
    Balanced Handle.born (processLearnKey env state key) := by
  refine Balanced.ite ?_ (Balanced.ite ?_ ?_)
  · exact (openConfirmFromDetail_balanced env state false).bind fun _ => balanced_pure _
  · exact (openConfirmFromDetail_balanced env state true).bind fun _ => balanced_pure _
  · exact (balanced_pure _).ite (balanced_pure _)

theorem confirmKey_balanced (force : Bool) (state : AppState) (key : Int) :
    Balanced Handle.born (confirmKey env force state key) :=
  (handleSignalConfirm_balanced env state force).ite ((balanced_pure _).ite (balanced_pure _))

section List

variable {block : Option Block} {rows : List ProcessRow} {state : AppState}

theorem aligned_lt (h : Aligned state rows) (hrows : 0 < rows.length) :
    state.selected < rows.length := by
  rcases h with rfl | ⟨hlt, -⟩
  · exact absurd hrows (lt_irrefl 0)
  · exact hlt

theorem selectAt_triple (hfits : rows.length ≤ roomOf block) {i : Nat} (hi : i < rows.length) :
    Triple Handle.born (blocks block) (selectAt state block rows i)
      fun _ owned => owned = blocks block := by
  refine triple_bind (useAt_triple (mem_blocks block) (hi.trans_le hfits)) ?_
  rintro _ _ rfl
  exact triple_pure rfl

theorem openSelectedDetail_triple {i : Nat} (hi : i < roomOf block) (row : ProcessRow)
    (screen : Screen) :
    Triple Handle.born (blocks block) (openSelectedDetail env state block i row screen)
      fun _ owned => owned = blocks block := by
  refine triple_bind (useAt_triple (mem_blocks block) hi) ?_
  rintro _ _ rfl
  refine triple_bind ((processDetailRead_balanced env _).keeps _) ?_
  rintro (_ | detail) _ rfl
  · exact triple_pure rfl
  · refine triple_bind (useAt_triple (mem_blocks block) hi) ?_
    rintro _ _ rfl
    exact triple_ite (fun _ => triple_pure rfl) fun _ => triple_pure rfl

theorem openAt_triple (hfits : rows.length ≤ roomOf block) (hselected : state.selected < rows.length)
    (screen : Screen) :
    Triple Handle.born (blocks block) (openAt env state block rows screen)
      fun _ owned => owned = blocks block := by
  unfold openAt
  rw [List.getElem?_eq_getElem hselected]
  exact openSelectedDetail_triple env (hselected.trans_le hfits) _ screen

theorem processesKey_triple (hfits : rows.length ≤ roomOf block) (haligned : Aligned state rows)
    (key : Int) :
    Triple Handle.born (blocks block) (processesKey env state block rows key)
      fun _ owned => owned = blocks block := by
  have hpure (state' : AppState) :
      Triple Handle.born (blocks block) (pure state') fun _ owned => owned = blocks block :=
    triple_pure rfl
  have hopen (hrows : 0 < rows.length) (screen : Screen) :=
    openAt_triple env hfits (aligned_lt haligned hrows) screen
  unfold processesKey
  refine triple_ite (fun h => selectAt_triple hfits ?_) fun _ => ?_
  · have hlt := aligned_lt haligned h.2
    split_ifs <;> omega
  refine triple_ite (fun h => selectAt_triple hfits ?_) fun _ => ?_
  · have hlt := aligned_lt haligned h.2
    split_ifs <;> omega
  refine triple_ite (fun h => hopen h.2 _) fun _ => ?_
  refine triple_ite (fun h => hopen h.2 _) fun _ => ?_
  refine triple_ite (fun h => hopen h.2 _) fun _ => ?_
  refine triple_ite (fun h => hopen h.2 _) fun _ => ?_
  split_ifs <;> exact hpure _

theorem shownRows_length_le (state : AppState) (all : List ProcessRow) :
    (shownRows env state all).length ≤ all.length := by
  unfold shownRows
  rw [(sortProcesses_perm env _ state.sort).length_eq, processQueryFilter_take]
  exact List.length_filter_le _ _

theorem showProcesses_triple {all : List ProcessRow} (hfits : all.length ≤ roomOf block)
    (term : TerminalSize) (state : AppState) (consumed : Nat) :
    Triple Handle.born (blocks block) (showProcesses env term state block all consumed)
      fun _ owned => owned = ∅ := by
  have hshown := (shownRows_length_le env state all).trans hfits
  refine triple_bind (useFirst_triple (mem_blocks block) ?_) ?_
  · split_ifs <;> omega
  rintro _ _ rfl
  refine triple_bind (useFirst_triple (mem_blocks block) hshown) ?_
  rintro _ _ rfl
  refine triple_bind (triple_keeps _) ?_
  rintro prompted _ rfl
  refine triple_bind (processesKey_triple env hshown (alignSelection_aligned _ _) _) ?_
  rintro acted _ rfl
  refine triple_bind (freeAny_triple block) ?_
  rintro _ _ rfl
  exact triple_pure rfl

end List

theorem processesPass_balanced (term : TerminalSize) (state : AppState) (consumed : Nat) :
    Balanced Handle.born (processesPass env term state consumed) := by
  refine triple_bind (sampleProcessRows_triple env) ?_
  rintro (_ | ⟨block, rows⟩) _ ⟨rfl, -, hfits⟩
  · have hnone : ([] : List ProcessRow).length ≤ roomOf none := Nat.zero_le _
    exact showProcesses_triple env hnone term _ consumed
  · rw [Finset.union_empty]
    exact showProcesses_triple env (hfits _ rfl) term _ consumed

theorem loopPass_balanced (state : AppState) (consumed : Nat) :
    Balanced Handle.born (loopPass env state consumed) := by
  refine Balanced.bind (triple_keeps _) fun term => ?_
  unfold screenPass
  cases state.screen with
  | overview => exact overviewPass_balanced env term state consumed
  | processes => exact processesPass_balanced env term state consumed
  | processSearch => exact triple_keeps _
  | detail => exact detailPass_balanced env (detailKey_balanced env) term state consumed
  | processLearn => exact detailPass_balanced env (processLearnKey_balanced env) term state consumed
  | learnMenu => exact triple_keeps _
  | learnTopic => exact triple_keeps _
  | confirmTerm => exact detailPass_balanced env (confirmKey_balanced env false) term state consumed
  | confirmKill => exact detailPass_balanced env (confirmKey_balanced env true) term state consumed

theorem passEvents_settle (s : Session) : settleAll ∅ (passEvents env s) = some ∅ := by
  unfold passEvents
  split
  · rfl
  · exact (loopPass_balanced env s.state s.consumed).settles s.now

/-- However long a run, nothing is used that is not held, or beyond its bounds, nothing is given
back twice, and between two passes nothing is held. -/
theorem ledger_settles (n : Nat) : settleAll ∅ (ledger env n) = some ∅ := by
  unfold ledger
  induction n with
  | zero => rfl
  | succ n ih =>
    rw [List.range_succ, List.flatMap_append, settleAll_append, ih, Option.bind_some,
      List.flatMap_singleton]
    exact passEvents_settle env _

end RookieTop.HeldPasses
