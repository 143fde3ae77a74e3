import RookieTop.RunInteractive
import RookieTop.Trace.Episode

/-! What one pass of the main loop can do: where it may lead, what it has drawn, and
what it does to the selected process and to others. -/
namespace RookieTop.Passes

open CLib Trace Sys ProcessList CollectOverview Explorer TerminalInput App RunInteractive

variable (env : Env)

def aboutSelected : Screen → Bool
  | .detail | .processLearn | .confirmTerm | .confirmKill => true
  | _ => false

/-- The keys of the explorer that open a screen about the highlighted process. -/
def opens : List (Int × Screen) :=
  [(inputEnter, .detail), (keyOf '?', .processLearn), (keyOf 'k', .confirmTerm),
    (keyOf 'K', .confirmKill)]

def openKey (force : Bool) : Int := keyOf (if force then 'K' else 'k')

def isYes (key : Int) : Prop := key = keyOf 'y' ∨ key = keyOf 'Y'

theorem aboutSelected_confirmScreen (force : Bool) : aboutSelected (confirmScreen force) = true := by
  cases force <;> rfl

theorem confirmScreen_inj {force force' : Bool} (h : confirmScreen force = confirmScreen force') :
    force = force' := by
  cases force <;> cases force' <;> first | rfl | cases h

def drawSelected : Screen → ProcessDetail → Drawing
  | .detail, shown => .detail shown
  | .processLearn, shown => .processLearning shown
  | .confirmKill, shown => .confirm shown true
  | _, shown => .confirm shown false

def shownDetail : Drawing → Option ProcessDetail
  | .detail shown | .processLearning shown => some shown
  | .confirm shown _ => some shown
  | _ => none

theorem shownDetail_drawSelected (screen : Screen) (shown : ProcessDetail) :
    shownDetail (drawSelected screen shown) = some shown := by
  cases screen <;> rfl

structure Sent (state : AppState) (key : Int) (call : KillCall) : Prop where
  confirmed : ∃ force, state.screen = confirmScreen force ∧ call.signal = confirmSignal force
  yes : isYes key
  other : call.pid ≠ env.self
  pid : call.pid = state.selectedDetail.row.pid
  starttime : call.starttime = state.selectedDetail.row.starttime

structure Acted (state : AppState) (key : Int) (result : AppState × List KillCall) : Prop where
  pid : result.1.selectedPid = state.selectedPid
  starttime : result.1.selectedStarttime = state.selectedStarttime
  returnScreen : result.1.returnScreen = state.returnScreen
  screen : aboutSelected result.1.screen = true → result.1.screen = state.screen ∨
    (state.screen = .detail ∨ state.screen = .processLearn) ∧
      (result.1.screen = .processLearn ∨
        ∃ force, result.1.screen = confirmScreen force ∧ key = openKey force)
  once : result.2.length ≤ 1
  sent : ∀ call ∈ result.2, Sent env state key call

/-- Neither the screen nor the one to return to is about the selected process. -/
def Apart (state : AppState) : Prop :=
  aboutSelected state.screen = false ∧ aboutSelected state.returnScreen = false

/-- What one pass did, from `state` at time `n`. -/
inductive Outcome (state : AppState) (consumed n : Nat) (pass : Pass) : Prop where
  | apart (screens : Apart pass.state) (kills : pass.kills = [])
      (drawn : ∀ frame, pass.frame = some frame → shownDetail frame.drawing = none)
  | opened (frame : Frame) (rows : List ProcessRow) (total : Nat) (aligned : AppState)
      (row : ProcessRow) (screen : Screen) (t : Nat)
      (list : state.screen = .processes) (drawn : pass.frame = some frame)
      (drawing : frame.drawing = .processes rows total aligned)
      (returnScreen : aligned.returnScreen = state.returnScreen)
      (highlighted : rows[aligned.selected]? = some row) (key : (pass.key, screen) ∈ opens)
      (result : pass.state = (openSelectedDetail env aligned row screen).value t)
      (ends : (openSelectedDetail env aligned row screen).after t =
        (loopPass env state consumed).after n)
      (kills : pass.kills = [])
  | acted (refreshed : AppState) (frame : Frame) (about : aboutSelected state.screen = true)
      (refresh : (refreshSelectedDetail env state).value (n + 1) = some refreshed)
      (drawn : pass.frame = some frame)
      (flushed : frame.time = (refreshSelectedDetail env state).after (n + 1))
      (drawing : frame.drawing = drawSelected state.screen refreshed.selectedDetail)
      (acts : Acted env refreshed pass.key (pass.state, pass.kills))

theorem acted_self (state : AppState) (key : Int) : Acted env state key (state, []) :=
  ⟨rfl, rfl, rfl, fun _ => Or.inl rfl, by simp, by simp⟩

theorem acted_back (state : AppState) (key : Int) :
    Acted env state key ({ state with screen := .processes }, []) :=
  ⟨rfl, rfl, rfl, fun h => by simp [aboutSelected] at h, by simp, by simp⟩

theorem acted_openConfirm {state : AppState} {force : Bool} {key : Int}
    (hscreen : state.screen = .detail ∨ state.screen = .processLearn) (hkey : key = openKey force)
    (n : Nat) :
    Acted env state key ((openConfirmFromDetail env state force).value n, []) := by
  obtain ⟨hpid, hstart, hopened, hreturn⟩ := openConfirmFromDetail_opened env state force n
  refine ⟨hpid, hstart, hreturn, fun habout => ?_, by simp, by simp⟩
  rcases hopened with h | h
  · exact Or.inr ⟨hscreen, Or.inr ⟨force, h, hkey⟩⟩
  · rw [h] at habout
    cases habout

theorem detailKey_acted {state : AppState} (hscreen : state.screen = .detail) (key : Int) (n : Nat) :
    Acted env state key ((detailKey env state key).value n) := by
  unfold detailKey
  split_ifs with hlearn hterm hkill hback
  · exact ⟨rfl, rfl, rfl, fun _ => Or.inr ⟨Or.inl hscreen, Or.inl rfl⟩, by simp, by simp⟩
  · exact acted_openConfirm env (Or.inl hscreen) hterm n
  · exact acted_openConfirm env (Or.inl hscreen) hkill n
  · exact acted_back env state key
  · exact acted_self env state key

theorem processLearnKey_acted {state : AppState} (hscreen : state.screen = .processLearn)
    (key : Int) (n : Nat) : Acted env state key ((processLearnKey env state key).value n) := by
  unfold processLearnKey
  split_ifs with hterm hkill hback
  · exact acted_openConfirm env (Or.inr hscreen) hterm n
  · exact acted_openConfirm env (Or.inr hscreen) hkill n
  · exact acted_back env state key
  · exact acted_self env state key

theorem confirmKey_acted {state : AppState} {force : Bool}
    (hscreen : state.screen = confirmScreen force) (key : Int) (n : Nat) :
    Acted env state key ((confirmKey env force state key).value n) := by
  unfold confirmKey
  split_ifs with hyes hno
  · obtain ⟨notice, hstate⟩ := handleSignalConfirm_state env state force n
    obtain ⟨honce, hkills⟩ := handleSignalConfirm_kills env state force n
    refine ⟨by rw [hstate], by rw [hstate], by rw [hstate], fun h => ?_, honce,
      fun call hcall => ?_⟩
    · rw [hstate] at h
      cases h
    · obtain ⟨hother, hpid, hstart, hsignal⟩ := hkills call hcall
      exact ⟨⟨force, hscreen, hsignal⟩, hyes, hother, hpid, hstart⟩
  · exact acted_back env state key
  · exact acted_self env state key

theorem selectAt_screens (state : AppState) (rows : List ProcessRow) (i : Nat) :
    (selectAt state rows i).screen = state.screen ∧
      (selectAt state rows i).returnScreen = state.returnScreen := by
  obtain ⟨selected, pid, starttime, heq⟩ := selectAt_eq state rows i
  rw [heq]
  exact ⟨rfl, rfl⟩

theorem alignSelection_screens (state : AppState) (rows : List ProcessRow) :
    (alignSelection state rows).screen = state.screen ∧
      (alignSelection state rows).returnScreen = state.returnScreen := by
  obtain ⟨selected, pid, starttime, heq⟩ := alignSelection_eq state rows
  rw [heq]
  exact ⟨rfl, rfl⟩

inductive Press (state : AppState) (rows : List ProcessRow) (key : Int) : Calls AppState → Prop where
  | arrow (i : Nat) (arrow : key = inputUp ∨ key = inputDown) :
      Press state rows key (pure (selectAt state rows i))
  | opens (screen : Screen) (mem : (key, screen) ∈ opens) :
      Press state rows key (openAt env state rows screen)
  | search (slash : key = keyOf '/') : Press state rows key (pure (beginProcessSearch state))
  | sort (sort : ProcessSort) : Press state rows key (pure { state with sort := sort })
  | menu : Press state rows key
      (pure { state with returnScreen := .processes, screen := .learnMenu })
  | back : Press state rows key (pure { state with screen := .overview })
  | none : Press state rows key (pure state)

theorem Press.ite {state : AppState} {rows : List ProcessRow} {key : Int} {c : Prop} [Decidable c]
    {x y : Calls AppState} (hx : c → Press env state rows key x)
    (hy : ¬ c → Press env state rows key y) :
    Press env state rows key (if c then x else y) := by
  split
  · exact hx ‹c›
  · exact hy ‹¬ c›

theorem processesKey_press (state : AppState) (rows : List ProcessRow) (key : Int) :
    Press env state rows key (processesKey env state rows key) := by
  unfold processesKey
  refine Press.ite env (fun h => .arrow _ (Or.inl h.1)) fun _ => ?_
  refine Press.ite env (fun h => .arrow _ (Or.inr h.1)) fun _ => ?_
  refine Press.ite env (fun h => .opens _ (by simp [Passes.opens, h.1])) fun _ => ?_
  refine Press.ite env (fun h => .opens _ (by simp [Passes.opens, h.1])) fun _ => ?_
  refine Press.ite env (fun h => .opens _ (by simp [Passes.opens, h.1])) fun _ => ?_
  refine Press.ite env (fun h => .opens _ (by simp [Passes.opens, h.1])) fun _ => ?_
  refine Press.ite env (fun h => .search h) fun _ => ?_
  refine Press.ite env (fun _ => .sort .cpu) fun _ => ?_
  refine Press.ite env (fun _ => .sort .memory) fun _ => ?_
  refine Press.ite env (fun _ => .sort .pid) fun _ => ?_
  refine Press.ite env (fun _ => .sort .name) fun _ => ?_
  refine Press.ite env (fun _ => .menu) fun _ => ?_
  exact Press.ite env (fun _ => .back) fun _ => .none

def Led (state : AppState) (rows : List ProcessRow) (key : Int) (n : Nat) (x : Calls AppState) :
    Prop :=
  (∃ row screen, rows[state.selected]? = some row ∧ (key, screen) ∈ opens ∧
    x = openSelectedDetail env state row screen) ∨ Apart (x.value n)

theorem openAt_led {state : AppState} (happart : Apart state) (rows : List ProcessRow)
    {key : Int} {screen : Screen} (hkey : (key, screen) ∈ opens) (n : Nat) :
    Led env state rows key n (openAt env state rows screen) := by
  unfold openAt
  cases hrow : rows[state.selected]? with
  | none => exact Or.inr happart
  | some row => exact Or.inl ⟨row, screen, hrow, hkey, rfl⟩

theorem processesKey_led {state : AppState} (happart : Apart state) (rows : List ProcessRow)
    (key : Int) (n : Nat) :
    Led env state rows key n (processesKey env state rows key) := by
  have hpress := processesKey_press env state rows key
  generalize processesKey env state rows key = x at hpress ⊢
  cases hpress with
  | arrow i _ =>
    obtain ⟨hscreen, hreturn⟩ := selectAt_screens state rows i
    exact Or.inr ⟨hscreen ▸ happart.1, hreturn ▸ happart.2⟩
  | opens screen mem => exact openAt_led env happart rows mem n
  | search _ => exact Or.inr ⟨rfl, happart.2⟩
  | sort _ => exact Or.inr happart
  | menu => exact Or.inr ⟨rfl, rfl⟩
  | back => exact Or.inr ⟨rfl, happart.2⟩
  | none => exact Or.inr happart

theorem overviewKey_apart {state : AppState} (happart : Apart state) (key : Int) :
    Apart (overviewKey state key) := by
  unfold overviewKey
  split_ifs
  · exact ⟨rfl, happart.2⟩
  · exact ⟨rfl, rfl⟩
  · exact happart

theorem searchKey_apart {state : AppState} (happart : Apart state) (key : Int) :
    Apart (searchKey state key) := by
  unfold searchKey editProcessSearch
  dsimp only
  split_ifs
  · exact ⟨rfl, happart.2⟩
  · exact ⟨rfl, happart.2⟩
  all_goals exact happart

theorem learnMenuKey_apart {state : AppState} (happart : Apart state) (key : Int) :
    Apart (learnMenuKey state key) := by
  unfold learnMenuKey
  split_ifs
  · exact happart
  · exact happart
  · exact ⟨rfl, happart.2⟩
  · exact ⟨happart.2, happart.2⟩
  · exact happart

theorem learnTopicKey_apart {state : AppState} (happart : Apart state) (key : Int) :
    Apart (learnTopicKey state key) := by
  unfold learnTopicKey
  split_ifs
  · exact happart
  · exact happart
  · exact ⟨rfl, happart.2⟩
  · exact happart

theorem detailPass_outcome {state : AppState} (habout : aboutSelected state.screen = true)
    (hreturn : aboutSelected state.returnScreen = false)
    {act : AppState → Int → Calls (AppState × List KillCall)}
    (hact : ∀ refreshed : AppState, refreshed.screen = state.screen → ∀ key n,
      Acted env refreshed key ((act refreshed key).value n))
    (consumed n : Nat) (term : TerminalSize) :
    Outcome env state consumed n
      ((detailPass env (drawSelected state.screen) act term state consumed).value (n + 1)) := by
  unfold detailPass
  simp only [Calls.value_bind]
  cases hrefresh : (refreshSelectedDetail env state).value (n + 1) with
  | none => exact .apart ⟨rfl, hreturn⟩ rfl fun _ hframe => by cases hframe
  | some refreshed =>
    obtain ⟨detail, -, -, -, rfl⟩ := refreshSelectedDetail_some env hrefresh
    exact .acted _ _ habout hrefresh rfl rfl rfl (hact { state with selectedDetail := detail } rfl _ _)

theorem overviewPass_outcome {state : AppState} (happart : Apart state) (consumed n m : Nat)
    (term : TerminalSize) :
    Outcome env state consumed n ((overviewPass env term state consumed).value m) := by
  unfold overviewPass
  simp only [Calls.value_bind]
  cases hrefresh : (refreshOverview env state).value m with
  | none => exact .apart happart rfl fun _ hframe => by cases hframe
  | some refreshed =>
    obtain ⟨view, -, rfl⟩ := refreshOverview_some env hrefresh
    have hscreens : Apart { state with
        view := view, viewOk := true, history := historyPush state.history view } := happart
    refine .apart (overviewKey_apart hscreens _) rfl fun frame hframe => ?_
    cases Option.some.inj hframe
    rfl

theorem noticeSampled_eq (state : AppState) (sampled : Option (List ProcessRow)) :
    ∃ notice, noticeSampled state sampled = { state with notice := notice } := by
  unfold noticeSampled
  split
  · exact ⟨_, rfl⟩
  · exact ⟨_, rfl⟩

theorem noticeSampled_screens (state : AppState) (sampled : Option (List ProcessRow)) :
    (noticeSampled state sampled).screen = state.screen ∧
      (noticeSampled state sampled).returnScreen = state.returnScreen := by
  obtain ⟨notice, heq⟩ := noticeSampled_eq state sampled
  rw [heq]
  exact ⟨rfl, rfl⟩

theorem showProcesses_outcome {state aligned : AppState} (hlist : state.screen = .processes)
    (happart : Apart aligned) (hreturn : aligned.returnScreen = state.returnScreen)
    (rows : List ProcessRow) (total consumed n t : Nat)
    (hends : (loopPass env state consumed).after n =
      (showProcesses env (env.window n) aligned rows total consumed).after t) :
    Outcome env state consumed n
      ((showProcesses env (env.window n) aligned rows total consumed).value t) := by
  unfold showProcesses at hends ⊢
  simp only [Calls.value_bind, Calls.after_bind, Calls.value_pure, Calls.after_pure] at hends ⊢
  generalize (prompt env (env.window n) (.processes rows total aligned) consumed).after t = u
    at hends ⊢
  rcases processesKey_led env happart rows _ u with ⟨row, screen, hrow, hkey, heq⟩ | hled
  · rw [heq] at hends
    exact .opened _ rows total aligned row screen u hlist rfl rfl hreturn hrow hkey
      (by rw [heq]) hends.symm rfl
  · refine .apart hled rfl fun frame hframe => ?_
    cases Option.some.inj hframe
    rfl

theorem processesPass_outcome {state : AppState} (hlist : state.screen = .processes)
    (hreturn : aboutSelected state.returnScreen = false) (consumed n : Nat) :
    Outcome env state consumed n
      ((processesPass env (env.window n) state consumed).value (n + 1)) := by
  have hends : (loopPass env state consumed).after n =
      (processesPass env (env.window n) state consumed).after (n + 1) := by
    simp only [loopPass, screenPass, hlist, Calls.after_bind, Calls.value_call, Calls.after_call]
  unfold processesPass at hends ⊢
  simp only [Calls.value_bind, Calls.after_bind] at hends ⊢
  generalize (sampleProcessRows env).value (n + 1) = sampled at hends ⊢
  have hnoticed := noticeSampled_screens state sampled
  have haligned := alignSelection_screens (noticeSampled state sampled)
    (shownRows env (noticeSampled state sampled) (sampled.getD []))
  have hback := haligned.2.trans hnoticed.2
  refine showProcesses_outcome env hlist ⟨?_, hback ▸ hreturn⟩ hback _ _ _ _ _ hends
  rw [haligned.1, hnoticed.1, hlist]
  rfl

theorem plainPass_outcome {state : AppState} {drawing : Drawing} (hdraw : shownDetail drawing = none)
    {act : AppState → Int → AppState} (hact : ∀ key, Apart (act state key))
    (term : TerminalSize) (consumed n m : Nat) :
    Outcome env state consumed n ((plainPass env drawing act term state consumed).value m) := by
  refine .apart (hact _) rfl fun frame hframe => ?_
  cases Option.some.inj hframe
  exact hdraw

theorem screenPass_outcome {state : AppState} (hreturn : aboutSelected state.returnScreen = false)
    (consumed n : Nat) :
    Outcome env state consumed n
      ((screenPass env (env.window n) state consumed).value (n + 1)) := by
  have hpart : aboutSelected state.screen = false → Apart state := fun h => ⟨h, hreturn⟩
  have hdetail := fun act habout hact =>
    @detailPass_outcome env state habout hreturn act hact consumed n (env.window n)
  unfold screenPass
  cases hscreen : state.screen with
  | overview => exact overviewPass_outcome env (hpart (by rw [hscreen]; rfl)) consumed n _ _
  | processes => exact processesPass_outcome env hscreen hreturn consumed n
  | processSearch =>
    exact plainPass_outcome env rfl (searchKey_apart (hpart (by rw [hscreen]; rfl))) _ _ _ _
  | learnMenu =>
    exact plainPass_outcome env rfl (learnMenuKey_apart (hpart (by rw [hscreen]; rfl))) _ _ _ _
  | learnTopic =>
    exact plainPass_outcome env rfl (learnTopicKey_apart (hpart (by rw [hscreen]; rfl))) _ _ _ _
  | detail =>
    rw [hscreen] at hdetail
    exact hdetail (detailKey env) rfl fun _ h => detailKey_acted env h
  | processLearn =>
    rw [hscreen] at hdetail
    exact hdetail (processLearnKey env) rfl fun _ h => processLearnKey_acted env h
  | confirmTerm =>
    rw [hscreen] at hdetail
    exact hdetail (confirmKey env false) rfl fun _ h => confirmKey_acted env h
  | confirmKill =>
    rw [hscreen] at hdetail
    exact hdetail (confirmKey env true) rfl fun _ h => confirmKey_acted env h

theorem loopPass_outcome {state : AppState} (hreturn : aboutSelected state.returnScreen = false)
    (consumed n : Nat) :
    Outcome env state consumed n ((loopPass env state consumed).value n) :=
  screenPass_outcome env hreturn consumed n

/-- The process instance that is highlighted in the list or shown alone. -/
def highlighted : Drawing → Option (Int × UInt64)
  | .processes rows _ state => (rows[state.selected]?).map fun row => (row.pid, row.starttime)
  | .detail shown | .processLearning shown => some (shown.row.pid, shown.row.starttime)
  | _ => none

def Highlights (drawing : Drawing) (pid : Int) (starttime : UInt64) : Prop :=
  highlighted drawing = some (pid, starttime)

/-- What a confirmation screen asks for: whether to force, and the process instance. -/
def asked : Drawing → Option (Bool × Int × UInt64)
  | .confirm shown force => some (force, shown.row.pid, shown.row.starttime)
  | _ => none

def Asks (drawing : Drawing) (force : Bool) (pid : Int) (starttime : UInt64) : Prop :=
  asked drawing = some (force, pid, starttime)

structure Enters (state : AppState) (force : Bool) (pass : Pass) : Prop where
  from_screen : state.screen ∈ [.processes, .detail, .processLearn]
  key : pass.key = openKey force
  highlighted : ∃ frame, pass.frame = some frame ∧
    Highlights frame.drawing pass.state.selectedPid pass.state.selectedStarttime

section Outcome

variable {env} {state : AppState} {consumed n : Nat} {pass : Pass}

theorem screen_of_opens {key : Int} {screen : Screen} {force : Bool} (hkey : (key, screen) ∈ opens)
    (hscreen : screen = confirmScreen force) : key = openKey force := by
  subst hscreen
  cases force <;> simpa [opens, openKey, confirmScreen] using hkey

theorem Outcome.returnScreen (h : Outcome env state consumed n pass)
    (hreturn : aboutSelected state.returnScreen = false) :
    aboutSelected pass.state.returnScreen = false := by
  cases h with
  | apart screens _ _ => exact screens.2
  | opened frame rows total aligned row screen t _ _ _ hback _ _ result =>
    rw [result, (openSelectedDetail_opened env aligned row screen t).returnScreen, hback, hreturn]
  | acted refreshed frame _ refresh _ _ _ acts =>
    obtain ⟨detail, -, -, -, rfl⟩ := refreshSelectedDetail_some env refresh
    exact acts.returnScreen ▸ hreturn

theorem Outcome.enters {force : Bool} (h : Outcome env state consumed n pass)
    (hbefore : state.screen ≠ confirmScreen force)
    (hafter : pass.state.screen = confirmScreen force) : Enters state force pass := by
  have habout : aboutSelected pass.state.screen = true :=
    hafter ▸ aboutSelected_confirmScreen force
  cases h with
  | apart screens _ _ => rw [screens.1] at habout; cases habout
  | opened frame rows total aligned row screen t list drawn drawing _ highlighted key result =>
    have hopened := openSelectedDetail_opened env aligned row screen t
    rw [← result] at hopened
    refine ⟨by simp [list], ?_, frame, drawn, ?_⟩
    · rcases hopened.screen with h | h
      · exact screen_of_opens key (h.symm.trans hafter)
      · rw [h] at habout; cases habout
    · unfold Highlights
      simp only [drawing, Passes.highlighted, highlighted, Option.map_some, hopened.pid,
        hopened.starttime]
  | acted refreshed frame _ refresh drawn _ drawing acts =>
    obtain ⟨detail, -, hpid, hstart, rfl⟩ := refreshSelectedDetail_some env refresh
    rcases acts.screen habout with hsame | ⟨hfrom, hto⟩
    · exact absurd (hsame.symm.trans hafter) hbefore
    · refine ⟨by simpa using Or.inr hfrom, ?_, frame, drawn, ?_⟩
      · rcases hto with hlearn | ⟨force', hscreen, hkey⟩
        · rw [hafter] at hlearn
          cases force <;> cases hlearn
        · rwa [← confirmScreen_inj (hscreen.symm.trans hafter)]
      · unfold Highlights
        rw [drawing, acts.pid, acts.starttime, ← hpid, ← hstart]
        rcases hfrom with h | h <;> rw [h] <;> rfl

theorem Outcome.stays (h : Outcome env state consumed n pass)
    (hbefore : aboutSelected state.screen = true) (hafter : aboutSelected pass.state.screen = true) :
    pass.state.selectedPid = state.selectedPid ∧
      pass.state.selectedStarttime = state.selectedStarttime := by
  cases h with
  | apart screens _ _ => rw [screens.1] at hafter; cases hafter
  | opened _ _ _ _ _ _ _ list => rw [list] at hbefore; cases hbefore
  | acted refreshed frame _ refresh _ _ _ acts =>
    obtain ⟨detail, -, -, -, rfl⟩ := refreshSelectedDetail_some env refresh
    exact ⟨acts.pid, acts.starttime⟩

theorem Outcome.once (h : Outcome env state consumed n pass) : pass.kills.length ≤ 1 := by
  cases h with
  | apart _ kills _ => simp [kills]
  | opened _ _ _ _ _ _ _ _ _ _ _ _ _ _ _ kills => simp [kills]
  | acted _ _ _ _ _ _ _ acts => exact acts.once

theorem Outcome.sent {call : KillCall} (h : Outcome env state consumed n pass)
    (hcall : call ∈ pass.kills) :
    ∃ force, state.screen = confirmScreen force ∧ call.signal = confirmSignal force ∧
      isYes pass.key ∧ call.pid ≠ env.self ∧ call.pid = state.selectedPid ∧
      call.starttime = state.selectedStarttime ∧
      ∃ frame, pass.frame = some frame ∧ Asks frame.drawing force call.pid call.starttime := by
  cases h with
  | apart _ kills _ => simp [kills] at hcall
  | opened _ _ _ _ _ _ _ _ _ _ _ _ _ _ _ kills => simp [kills] at hcall
  | acted refreshed frame _ refresh drawn _ drawing acts =>
    obtain ⟨detail, -, hpid, hstart, rfl⟩ := refreshSelectedDetail_some env refresh
    obtain ⟨⟨force, hscreen, hsignal⟩, hyes, hother, hcallPid, hcallStart⟩ := acts.sent call hcall
    refine ⟨force, hscreen, hsignal, hyes, hother, hcallPid.trans hpid, hcallStart.trans hstart,
      frame, drawn, ?_⟩
    unfold Asks
    rw [drawing, show state.screen = confirmScreen force from hscreen, hcallPid, hcallStart]
    cases force <;> rfl

end Outcome

theorem runInteractive_succ (n : Nat) :
    runInteractive env (n + 1) = step env (runInteractive env n) :=
  Function.iterate_succ_apply' _ _ _

theorem passAt_some {n : Nat} {pass : Pass} (h : passAt env n = some pass) :
    pass = (loopPass env (runInteractive env n).state (runInteractive env n).consumed).value
        (runInteractive env n).now ∧
      (runInteractive env (n + 1)).state = pass.state ∧
      (runInteractive env (n + 1)).consumed = pass.consumed ∧
      (runInteractive env (n + 1)).now =
        (loopPass env (runInteractive env n).state (runInteractive env n).consumed).after
          (runInteractive env n).now := by
  rw [runInteractive_succ]
  unfold passAt at h
  refine ⟨?_, by rw [step, h], by rw [step, h], by rw [step, h]⟩
  unfold passOf at h
  split at h
  · cases h
  · exact (Option.some.inj h).symm

theorem passAt_none {n : Nat} (h : passAt env n = none) :
    (runInteractive env (n + 1)).state = (runInteractive env n).state ∧
      (runInteractive env (n + 1)).now = (runInteractive env n).now := by
  rw [runInteractive_succ]
  unfold passAt at h
  exact ⟨by rw [step, h], by rw [step, h]⟩

theorem step_returnScreen (s : Session) (hreturn : aboutSelected s.state.returnScreen = false) :
    aboutSelected (step env s).state.returnScreen = false := by
  unfold step passOf
  split
  · exact hreturn
  · rename_i pass hpass
    split_ifs at hpass
    cases Option.some.inj hpass
    exact (loopPass_outcome env hreturn s.consumed s.now).returnScreen hreturn

theorem returnScreen_apart (n : Nat) :
    aboutSelected (runInteractive env n).state.returnScreen = false :=
  @run_induction Session (step env) Session.initial
    (fun s => aboutSelected s.state.returnScreen = false) rfl (step_returnScreen env) n

theorem passAt_outcome {n : Nat} {pass : Pass} (h : passAt env n = some pass) :
    Outcome env (runInteractive env n).state (runInteractive env n).consumed
      (runInteractive env n).now pass := by
  rw [(passAt_some env h).1]
  exact loopPass_outcome env (returnScreen_apart env n) _ _

end RookieTop.Passes
