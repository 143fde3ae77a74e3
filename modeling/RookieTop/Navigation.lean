import RookieTop.SearchTyping

/-! The screens as a graph: which key leads from which screen to which, and how Esc leads
back to the overview from everywhere. -/
namespace RookieTop.Navigation

open CLib Trace Sys ProcessList CollectOverview Explorer TerminalInput App RunInteractive Passes
  Selection SearchTyping

def back (returnScreen : Screen) : Screen → Screen
  | .overview | .processes => .overview
  | .learnMenu => returnScreen
  | .learnTopic => .learnMenu
  | _ => .processes

def explains : Screen → List Int
  | .overview => [keyOf '?', keyOf 'l', keyOf 'L']
  | .processes => [keyOf 'l', keyOf 'L']
  | _ => []

/-- What one key does, or the lack of one: the screen that follows, and the one that the
lessons return to. -/
inductive Edge (screen returnScreen : Screen) (key : Int) : Screen → Screen → Prop
  | escape (esc : key = inputEscape) :
      Edge screen returnScreen key (back returnScreen screen) returnScreen
  | stays (other : key ≠ inputEscape) : Edge screen returnScreen key screen returnScreen
  | lessons (explain : key ∈ explains screen) : Edge screen returnScreen key .learnMenu screen
  | list (overview : screen = .overview) (p : key = keyOf 'p') :
      Edge screen returnScreen key .processes returnScreen
  | search (list : screen = .processes) (slash : key = keyOf '/') :
      Edge screen returnScreen key .processSearch returnScreen
  | applies (search : screen = .processSearch) (enter : key = inputEnter) :
      Edge screen returnScreen key .processes returnScreen
  | opens (opened : Screen) (list : screen = .processes) (mem : (key, opened) ∈ opens) :
      Edge screen returnScreen key opened returnScreen
  | learns (detail : screen = .detail) (ask : key = keyOf '?') :
      Edge screen returnScreen key .processLearn returnScreen
  | asks (force : Bool) (about : screen = .detail ∨ screen = .processLearn)
      (ask : key = openKey force) :
      Edge screen returnScreen key (confirmScreen force) returnScreen
  | leaves (about : aboutSelected screen = true) :
      Edge screen returnScreen key .processes returnScreen
  | topic (menu : screen = .learnMenu) (enter : key = inputEnter) :
      Edge screen returnScreen key .learnTopic returnScreen

abbrev Follows (state : AppState) (key : Int) (state' : AppState) : Prop :=
  Edge state.screen state.returnScreen key state'.screen state'.returnScreen

theorem Edge.lessonsOf {screen returnScreen origin : Screen} {key : Int} (h : screen = origin)
    (explain : key ∈ explains origin) : Edge screen returnScreen key .learnMenu origin := by
  subst h
  exact .lessons explain

theorem Edge.escapeTo {screen returnScreen target : Screen} {key : Int} (esc : key = inputEscape)
    (h : back returnScreen screen = target) : Edge screen returnScreen key target returnScreen := by
  subst h
  exact .escape esc

theorem Edge.staysOf {screen returnScreen target : Screen} {key : Int} (h : screen = target)
    (other : key ≠ inputEscape) : Edge screen returnScreen key target returnScreen := by
  subst h
  exact .stays other

section Actions

variable (env : Env) {state : AppState} {key : Int}

theorem overviewKey_follows (h : state.screen = .overview) (key : Int) :
    Follows state key (overviewKey state key) := by
  unfold overviewKey
  split_ifs with hlist hexplain
  · exact .list h hlist
  · have hmem : key ∈ explains .overview := by simpa [explains] using hexplain
    exact .lessonsOf h hmem
  · by_cases hkey : key = inputEscape
    · exact .escapeTo hkey (by rw [h]; rfl)
    · exact .stays hkey

theorem searchKey_follows (h : state.screen = .processSearch) (key : Int) :
    Follows state key (searchKey state key) := by
  unfold searchKey
  split_ifs with henter hescape
  · exact .applies h henter
  · exact .escapeTo hescape (by rw [h]; rfl)
  · rw [editProcessSearch_eq]
    exact .stays hescape

theorem learnMenuKey_follows (h : state.screen = .learnMenu) (key : Int) :
    Follows state key (learnMenuKey state key) := by
  unfold learnMenuKey
  split_ifs with hup hdown henter hescape
  · exact .stays (by rw [hup.1]; decide)
  · exact .stays (by rw [hdown.1]; decide)
  · exact .topic h henter
  · exact .escapeTo hescape (by rw [h]; rfl)
  · exact .stays hescape

theorem learnTopicKey_follows (h : state.screen = .learnTopic) (key : Int) :
    Follows state key (learnTopicKey state key) := by
  have hletter {c : Char} (hc : keyOf c ≠ inputEscape) (hkey : key = keyOf c) :
      key ≠ inputEscape := hkey ▸ hc
  unfold learnTopicKey
  split_ifs with hnext hback hescape
  · exact .stays (hnext.elim (hletter (by decide)) (hletter (by decide)))
  · exact .stays (hback.elim (hletter (by decide)) (hletter (by decide)))
  · exact .escapeTo hescape (by rw [h]; rfl)
  · exact .stays hescape

theorem openAt_follows (h : state.screen = .processes) (rows : List ProcessRow) {screen : Screen}
    (hmem : (key, screen) ∈ opens) (n : Nat) :
    Follows state key ((openAt env state rows screen).value n) := by
  have hkey : key ≠ inputEscape := by
    rintro rfl
    simp [opens, inputEscape, inputEnter, keyOf] at hmem
  unfold openAt
  cases rows[state.selected]? with
  | none => exact .stays hkey
  | some row =>
    obtain ⟨detail, notice, opened, heq, hopened⟩ := openSelectedDetail_eq env state row screen n
    dsimp only
    rw [heq]
    rcases hopened with rfl | rfl
    · exact .opens opened h hmem
    · exact .staysOf h hkey

theorem selectAt_follows (rows : List ProcessRow) (i : Nat) (hkey : key ≠ inputEscape) :
    Follows state key (selectAt state rows i) := by
  obtain ⟨hscreen, hreturn⟩ := selectAt_screens state rows i
  unfold Follows
  rw [hscreen, hreturn]
  exact .stays hkey

theorem follows_ite {c : Prop} [Decidable c] {x y : Calls AppState} {n : Nat}
    (hx : c → Follows state key (x.value n)) (hy : ¬ c → Follows state key (y.value n)) :
    Follows state key ((if c then x else y).value n) := by
  split
  · exact hx ‹c›
  · exact hy ‹¬ c›

theorem processesKey_follows (h : state.screen = .processes) (rows : List ProcessRow) (key : Int)
    (n : Nat) : Follows state key ((processesKey env state rows key).value n) := by
  have hopen {screen : Screen} (hmem : (key, screen) ∈ opens) :=
    openAt_follows env h rows hmem n
  unfold processesKey
  refine follows_ite (fun hup => selectAt_follows rows _ (by rw [hup.1]; decide)) fun _ => ?_
  refine follows_ite (fun hdown => selectAt_follows rows _ (by rw [hdown.1]; decide)) fun _ => ?_
  refine follows_ite (fun henter => hopen (by simp [opens, henter.1])) fun _ => ?_
  refine follows_ite (fun hlearn => hopen (by simp [opens, hlearn.1])) fun _ => ?_
  refine follows_ite (fun hterm => hopen (by simp [opens, hterm.1])) fun _ => ?_
  refine follows_ite (fun hkill => hopen (by simp [opens, hkill.1])) fun _ => ?_
  refine follows_ite (fun hslash => .search h hslash) fun _ => ?_
  refine follows_ite (fun hcpu => .stays (by rw [hcpu]; decide)) fun _ => ?_
  refine follows_ite (fun hmemory => .stays (by rw [hmemory]; decide)) fun _ => ?_
  refine follows_ite (fun hpid => .stays (by rw [hpid]; decide)) fun _ => ?_
  refine follows_ite (fun hname => .stays (by rw [hname]; decide)) fun _ => ?_
  refine follows_ite (fun hmenu => .lessonsOf h (List.mem_pair.mpr hmenu)) fun _ => ?_
  exact follows_ite (fun hescape => .escapeTo hescape (by rw [h]; rfl)) fun hescape =>
    .stays hescape

theorem confirm_follows (h : state.screen = .detail ∨ state.screen = .processLearn) (force : Bool)
    (hkey : key = openKey force) (n : Nat) :
    Follows state key ((openConfirmFromDetail env state force).value n) := by
  obtain ⟨detail, notice, opened, heq, hopened⟩ := openConfirmFromDetail_eq env state force n
  rw [heq]
  rcases hopened with rfl | rfl
  · exact .asks force h hkey
  · refine .leaves ?_
    rcases h with h | h <;> rw [h] <;> rfl

theorem detailKey_follows (h : state.screen = .detail) (key : Int) (n : Nat) :
    Follows state key ((detailKey env state key).value n).1 := by
  unfold detailKey
  split_ifs with hlearn hterm hkill hback
  · exact .learns h hlearn
  · exact confirm_follows env (Or.inl h) false hterm n
  · exact confirm_follows env (Or.inl h) true hkill n
  · exact .escapeTo hback (by rw [h]; rfl)
  · exact .stays hback

theorem processLearnKey_follows (h : state.screen = .processLearn) (key : Int) (n : Nat) :
    Follows state key ((processLearnKey env state key).value n).1 := by
  unfold processLearnKey
  split_ifs with hterm hkill hback
  · exact confirm_follows env (Or.inr h) false hterm n
  · exact confirm_follows env (Or.inr h) true hkill n
  · exact .escapeTo hback (by rw [h]; rfl)
  · exact .stays hback

theorem confirmKey_follows {force : Bool} (h : state.screen = confirmScreen force) (key : Int)
    (n : Nat) : Follows state key ((confirmKey env force state key).value n).1 := by
  have habout : aboutSelected state.screen = true := h ▸ aboutSelected_confirmScreen force
  unfold confirmKey
  split_ifs with hyes hno
  · obtain ⟨notice, hstate⟩ := handleSignalConfirm_state env state force n
    rw [hstate]
    exact .leaves habout
  · exact .leaves habout
  · exact .stays fun hescape => hno (Or.inr (Or.inr hescape))

end Actions

section Pass

variable (env : Env) {state : AppState}

theorem overviewPass_follows (h : state.screen = .overview) (term : TerminalSize)
    (consumed n : Nat) :
    Follows state ((overviewPass env term state consumed).value n).key
      ((overviewPass env term state consumed).value n).state := by
  unfold overviewPass
  simp only [Calls.value_bind]
  cases hrefresh : (refreshOverview env state).value n with
  | none =>
    have hnone : inputNone ≠ inputEscape := by decide
    exact .stays hnone
  | some refreshed =>
    obtain ⟨view, -, rfl⟩ := refreshOverview_some env hrefresh
    have hrefreshed : { state with
        view := view, viewOk := true, history := historyPush state.history view }.screen =
          .overview := h
    exact overviewKey_follows hrefreshed _

theorem processesPass_follows (h : state.screen = .processes) (term : TerminalSize)
    (consumed n : Nat) :
    Follows state ((processesPass env term state consumed).value n).key
      ((processesPass env term state consumed).value n).state := by
  unfold processesPass showProcesses
  simp only [Calls.value_bind, Calls.value_pure]
  generalize (sampleProcessRows env).value n = sampled
  generalize shownRows env (noticeSampled state sampled) (sampled.getD []) = rows
  have hscreen : (alignSelection (noticeSampled state sampled) rows).screen = .processes := by
    rw [(alignSelection_screens _ rows).1, (noticeSampled_screens state sampled).1, h]
  have hreturn : (alignSelection (noticeSampled state sampled) rows).returnScreen =
      state.returnScreen := by
    rw [(alignSelection_screens _ rows).2, (noticeSampled_screens state sampled).2]
  have hedge := fun key t => processesKey_follows env hscreen rows key t
  unfold Follows at hedge ⊢
  rw [hscreen, hreturn] at hedge
  rw [h]
  exact hedge _ _

theorem detailPass_follows (h : aboutSelected state.screen = true) {draw : ProcessDetail → Drawing}
    {act : AppState → Int → Calls (AppState × List KillCall)}
    (hact : ∀ refreshed : AppState, refreshed.screen = state.screen → ∀ key t,
      Follows refreshed key ((act refreshed key).value t).1)
    (term : TerminalSize) (consumed n : Nat) :
    Follows state ((detailPass env draw act term state consumed).value n).key
      ((detailPass env draw act term state consumed).value n).state := by
  unfold detailPass
  simp only [Calls.value_bind]
  cases hrefresh : (refreshSelectedDetail env state).value n with
  | none => exact .leaves h
  | some refreshed =>
    obtain ⟨detail, -, -, -, rfl⟩ := refreshSelectedDetail_some env hrefresh
    exact hact { state with selectedDetail := detail } rfl _ _

/-- Every pass takes one edge. -/
theorem loopPass_follows (consumed n : Nat) :
    Follows state ((loopPass env state consumed).value n).key
      ((loopPass env state consumed).value n).state := by
  have hdetail := fun habout draw act hact =>
    @detailPass_follows env state habout draw act hact (env.window n) consumed (n + 1)
  unfold loopPass screenPass
  rw [Calls.value_bind, Calls.value_call, Calls.after_call]
  cases hscreen : state.screen with
  | overview => exact overviewPass_follows env hscreen _ consumed _
  | processes => exact processesPass_follows env hscreen _ consumed _
  | processSearch => exact searchKey_follows hscreen _
  | learnMenu => exact learnMenuKey_follows hscreen _
  | learnTopic => exact learnTopicKey_follows hscreen _
  | detail =>
    rw [hscreen] at hdetail
    exact hdetail rfl _ _ fun _ h => detailKey_follows env h
  | processLearn =>
    rw [hscreen] at hdetail
    exact hdetail rfl _ _ fun _ h => processLearnKey_follows env h
  | confirmTerm =>
    rw [hscreen] at hdetail
    exact hdetail rfl _ _ fun _ h => @confirmKey_follows env _ false h
  | confirmKill =>
    rw [hscreen] at hdetail
    exact hdetail rfl _ _ fun _ h => @confirmKey_follows env _ true h

end Pass

variable (env : Env)

theorem passAt_follows {n : Nat} {pass : Pass} (h : passAt env n = some pass) :
    Follows (runInteractive env n).state pass.key (runInteractive env (n + 1)).state := by
  obtain ⟨hvalue, hstate, -⟩ := passAt_some env h
  rw [hstate, hvalue]
  exact loopPass_follows env _ _

/-- How many presses of Esc a screen is away from the overview, if the lessons are opened
from the overview or the explorer. -/
def depth (returnScreen : Screen) : Screen → Nat
  | .overview => 0
  | .processes => 1
  | .learnMenu => if returnScreen = .overview then 1 else 2
  | .learnTopic => if returnScreen = .overview then 2 else 3
  | _ => 2

def depthAt (n : Nat) : Nat :=
  depth (runInteractive env n).state.returnScreen (runInteractive env n).state.screen

theorem depth_back {returnScreen screen : Screen}
    (h : returnScreen = .overview ∨ returnScreen = .processes) :
    depth returnScreen (back returnScreen screen) = depth returnScreen screen - 1 := by
  rcases h with rfl | rfl <;> cases screen <;> rfl

theorem depth_le (returnScreen screen : Screen) : depth returnScreen screen ≤ 3 := by
  unfold depth
  split <;> first | omega | (split <;> omega)

theorem depth_eq_zero {returnScreen screen : Screen} (h : depth returnScreen screen = 0) :
    screen = .overview := by
  unfold depth at h
  split at h <;> first | rfl | omega | (split at h <;> omega)

theorem depth_about {returnScreen screen : Screen} (h : aboutSelected screen = true) :
    depth returnScreen screen = 2 := by
  cases screen <;> first | rfl | cases h

theorem edge_none {screen returnScreen screen' returnScreen' : Screen}
    (h : Edge screen returnScreen inputNone screen' returnScreen') :
    depth returnScreen' screen' ≤ depth returnScreen screen := by
  cases h with
  | stays _ => exact le_refl _
  | leaves about =>
    rw [depth_about about]
    exact Nat.le_succ 1
  | escape esc => exact absurd esc (by decide)
  | lessons explain => cases screen <;> simp [explains, inputNone, keyOf] at explain
  | list _ p => exact absurd p (by decide)
  | search _ slash => exact absurd slash (by decide)
  | applies _ enter => exact absurd enter (by decide)
  | opens opened _ mem => simp [opens, inputNone, inputEnter, keyOf] at mem
  | learns _ ask => exact absurd ask (by decide)
  | asks force _ ask => cases force <;> exact absurd ask (by decide)
  | topic _ enter => exact absurd enter (by decide)

theorem edge_escape {screen returnScreen screen' returnScreen' : Screen}
    (hreturn : returnScreen = .overview ∨ returnScreen = .processes)
    (h : Edge screen returnScreen inputEscape screen' returnScreen') :
    depth returnScreen' screen' = depth returnScreen screen - 1 := by
  cases h with
  | escape _ => exact depth_back hreturn
  | stays other => exact absurd rfl other
  | leaves about =>
    rw [depth_about about]
    rfl
  | lessons explain => cases screen <;> simp [explains, inputEscape, keyOf] at explain
  | list _ p => exact absurd p (by decide)
  | search _ slash => exact absurd slash (by decide)
  | applies _ enter => exact absurd enter (by decide)
  | opens opened _ mem => simp [opens, inputEscape, inputEnter, keyOf] at mem
  | learns _ ask => exact absurd ask (by decide)
  | asks force _ ask => cases force <;> exact absurd ask (by decide)
  | topic _ enter => exact absurd enter (by decide)

/-- In a stretch of a run in which no other key is read, each Esc is one step back. -/
theorem escapes_back {m count : Nat}
    (hkeys : ∀ key ∈ keysRead env m count, key = inputEscape ∨ key = inputNone) :
    depthAt env (m + count) ≤
      depthAt env m - (keysRead env m count).countP (· == inputEscape) := by
  refine @rank_le Int (fun n => (passAt env n).map Pass.key) (depthAt env) (· == inputEscape) m
    count fun i hi => ?_
  cases hpass : passAt env (m + i) with
  | none =>
    have hstate := (passAt_none env hpass).1
    unfold depthAt
    rw [hstate]
    exact le_refl _
  | some pass =>
    have hedge := passAt_follows env hpass
    have hmem : pass.key ∈ keysRead env m count := by
      refine List.mem_filterMap.mpr ⟨i, List.mem_range.mpr hi, ?_⟩
      rw [hpass]
      rfl
    unfold Follows at hedge
    rcases hkeys _ hmem with hkey | hkey
    · rw [hkey] at hedge
      have hback := edge_escape (runInteractive_sound env (m + i)).returnScreen hedge
      simpa [hkey, depthAt] using hback.le
    · rw [hkey] at hedge
      have hnone : (inputNone == inputEscape) = false := by decide
      simpa [hkey, depthAt, hnone] using edge_none hedge

/-- From wherever a run has come to, three presses of Esc lead to the overview. They may be any
time apart, and processes may be gone meanwhile. -/
theorem escapes_home {m count : Nat}
    (hkeys : ∀ key ∈ keysRead env m count, key = inputEscape ∨ key = inputNone)
    (hthree : 3 ≤ (keysRead env m count).countP (· == inputEscape)) :
    (runInteractive env (m + count)).state.screen = .overview := by
  have hback := escapes_back env hkeys
  have hdepth : depthAt env m ≤ 3 := depth_le _ _
  have hzero : depthAt env (m + count) = 0 := by omega
  exact depth_eq_zero hzero

/-- Out of a lesson that was opened from the explorer: `p`, `l`, Enter, and Esc three times. -/
def reading : Env :=
  Lives.lastingMachine.env (Lives.attended [ascii "7"]
    [(0, 112), (0, 108), (0, 13), (66, 27), (74, 27), (110, 27)])

theorem escapes_home_reading :
    (runInteractive reading 3).state.screen = .learnTopic ∧
      (runInteractive reading (3 + 5)).state.screen = .overview :=
  ⟨by decide +kernel, escapes_home reading (by decide +kernel) (by decide +kernel)⟩

end RookieTop.Navigation
