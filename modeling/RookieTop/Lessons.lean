import RookieTop.Navigation

/-! Visits to the lessons: the stretches of a run spent in the menu and the topics. They
leave everything else as it was, and end where they began. -/
namespace RookieTop.Lessons

open CLib Trace Sys ProcessList CollectOverview Explorer TerminalInput App RunInteractive Passes
  Selection SearchTyping Navigation

def inLessons (screen : Screen) : Bool := screen = .learnMenu || screen = .learnTopic

def lessonKey (state : AppState) (key : Int) : AppState :=
  if state.screen = .learnMenu then learnMenuKey state key else learnTopicKey state key

structure Kept (entered state : AppState) : Prop where
  rest : state = { entered with
    screen := state.screen, lesson := state.lesson, learnSelected := state.learnSelected }

theorem Kept.refl (state : AppState) : Kept state state := ⟨rfl⟩

theorem Kept.trans {a b c : AppState} (hab : Kept a b) (hbc : Kept b c) : Kept a c := by
  obtain ⟨hab⟩ := hab
  obtain ⟨hbc⟩ := hbc
  rw [hab] at hbc
  exact ⟨hbc⟩

theorem lessonKey_kept (state : AppState) (key : Int) : Kept state (lessonKey state key) := by
  unfold lessonKey learnMenuKey learnTopicKey
  split_ifs <;> exact ⟨rfl⟩

theorem foldl_lessonKey_kept (keys : List Int) (state : AppState) :
    Kept state (keys.foldl lessonKey state) := by
  induction keys generalizing state with
  | nil => exact .refl state
  | cons key keys ih => exact (lessonKey_kept state key).trans (ih _)

theorem lessonKey_leaves {state : AppState} {key : Int} (hin : inLessons state.screen = true)
    (hout : inLessons (lessonKey state key).screen = false) :
    state.screen = .learnMenu ∧ key = inputEscape ∧
      lessonKey state key = { state with screen := state.returnScreen } := by
  unfold lessonKey at hout ⊢
  split_ifs at hout ⊢ with hmenu
  · unfold learnMenuKey at hout ⊢
    split_ifs at hout ⊢ with hup hdown henter hescape
    · exact absurd hin (by simpa using hout)
    · exact absurd hin (by simpa using hout)
    · cases hout
    · exact ⟨hmenu, hescape, rfl⟩
    · exact absurd hin (by simpa using hout)
  · unfold learnTopicKey at hout
    split_ifs at hout
    · exact absurd hin (by simpa using hout)
    · exact absurd hin (by simpa using hout)
    · cases hout
    · exact absurd hin (by simpa using hout)

def turn (key : Int) : Int :=
  if key = keyOf 'n' ∨ key = keyOf 'N' then 1
  else if key = keyOf 'b' ∨ key = keyOf 'B' then -1
  else 0

theorem learnTopicKey_lesson {state : AppState} (h : state.lesson < teachCount) (key : Int) :
    ((learnTopicKey state key).lesson : Int) = (state.lesson + turn key) % teachCount := by
  unfold teachCount at h
  unfold learnTopicKey turn teachCount
  split_ifs <;> (try dsimp only) <;> omega

theorem foldl_learnTopicKey_lesson (keys : List Int) {state : AppState}
    (h : state.lesson < teachCount) :
    ((keys.foldl learnTopicKey state).lesson : Int) =
      (state.lesson + (keys.map turn).sum) % teachCount := by
  induction keys generalizing state with
  | nil =>
    unfold teachCount at h ⊢
    simp only [List.foldl_nil, List.map_nil, List.sum_nil]
    omega
  | cons key keys ih =>
    have hstep := learnTopicKey_lesson h key
    have hlt : (learnTopicKey state key).lesson < teachCount := by
      unfold teachCount at hstep ⊢
      omega
    rw [List.foldl_cons, ih hlt, hstep, List.map_cons, List.sum_cons, Int.emod_add_emod,
      Int.add_assoc]

variable (env : Env)

theorem loopPass_lesson {state : AppState} (h : inLessons state.screen = true) (consumed n : Nat) :
    let pass := (loopPass env state consumed).value n
    pass.state = lessonKey state pass.key ∧ pass.kills = [] ∧ pass.failed = false := by
  unfold inLessons at h
  rw [Bool.or_eq_true, decide_eq_true_eq, decide_eq_true_eq] at h
  unfold lessonKey
  rcases h with hscreen | hscreen
  · simp only [loopPass, screenPass, hscreen, plainPass, Calls.value_bind, Calls.value_pure,
      and_self, if_true]
  · have hmenu : Screen.learnTopic ≠ .learnMenu := by decide
    simp only [loopPass, screenPass, hscreen, plainPass, Calls.value_bind, Calls.value_pure,
      and_self, if_neg hmenu]

theorem step_lesson {n : Nat} (h : inLessons (runInteractive env n).state.screen = true) :
    (runInteractive env (n + 1)).state =
      ((passAt env n).map Pass.key).elim (runInteractive env n).state
        (lessonKey (runInteractive env n).state) := by
  cases hpass : passAt env n with
  | none => exact (passAt_none env hpass).1
  | some pass =>
    obtain ⟨hvalue, hstate, -⟩ := passAt_some env hpass
    rw [hstate, hvalue]
    exact (loopPass_lesson env h _ _).1

theorem step_topic {n : Nat} (h : (runInteractive env n).state.screen = .learnTopic) :
    (runInteractive env (n + 1)).state =
      ((passAt env n).map Pass.key).elim (runInteractive env n).state
        (learnTopicKey (runInteractive env n).state) := by
  have hmenu : (runInteractive env n).state.screen ≠ .learnMenu := by
    rw [h]
    decide
  have hlesson := step_lesson env (by rw [h]; rfl)
  unfold lessonKey at hlesson
  simpa only [if_neg hmenu] using hlesson

theorem edge_topic {screen returnScreen screen' returnScreen' : Screen} {key : Int}
    (hreturn : returnScreen = .overview ∨ returnScreen = .processes)
    (h : Edge screen returnScreen key screen' returnScreen') (hout : screen ≠ .learnTopic)
    (hin : screen' = .learnTopic) : screen = .learnMenu ∧ key = inputEnter := by
  cases h with
  | escape _ => rcases hreturn with rfl | rfl <;> cases screen <;> cases hin
  | stays _ => exact absurd hin hout
  | opens opened _ mem =>
    subst hin
    simp [opens] at mem
  | asks force _ _ => cases force <;> cases hin
  | topic menu enter => exact ⟨menu, enter⟩
  | _ => cases hin

theorem edge_enters {screen returnScreen screen' returnScreen' : Screen} {key : Int}
    (hreturn : returnScreen = .overview ∨ returnScreen = .processes)
    (h : Edge screen returnScreen key screen' returnScreen') (hout : inLessons screen = false)
    (hin : inLessons screen' = true) :
    key ∈ explains screen ∧ returnScreen' = screen := by
  cases h with
  | escape _ =>
    rcases hreturn with rfl | rfl <;> cases screen <;> first | exact absurd hin (by decide) |
      exact absurd hout (by decide)
  | stays _ => exact absurd hin (by simp [hout])
  | lessons explain => exact ⟨explain, rfl⟩
  | opens opened _ mem =>
    exfalso
    simp only [opens, List.mem_cons, Prod.mk.injEq, List.not_mem_nil, or_false] at mem
    rcases mem with ⟨-, rfl⟩ | ⟨-, rfl⟩ | ⟨-, rfl⟩ | ⟨-, rfl⟩ <;> cases hin
  | asks force _ _ => cases force <;> cases hin
  | topic menu _ =>
    rw [menu] at hout
    cases hout
  | _ => cases hin

/-- A visit to the lessons, opened by pass `m` and not over at `n`. -/
structure Visit (m n : Nat) : Prop where
  before : m < n
  opened : ∃ pass, passAt env m = some pass ∧
    pass.key ∈ explains (runInteractive env m).state.screen
  since : ∀ j, m < j → j ≤ n → inLessons (runInteractive env j).state.screen = true
  returnScreen : (runInteractive env n).state.returnScreen = (runInteractive env m).state.screen
  kept : Kept (runInteractive env (m + 1)).state (runInteractive env n).state

theorem exists_visit {n : Nat} (h : inLessons (runInteractive env n).state.screen = true) :
    ∃ m, Visit env m n := by
  obtain ⟨m, hm, hnot, hsince⟩ := @exists_entry
    (fun j => inLessons (runInteractive env j).state.screen = true) n h (fun h => by cases h)
  have hafter := hsince (m + 1) (by omega) hm
  cases hpass : passAt env m with
  | none =>
    rw [(passAt_none env hpass).1] at hafter
    exact absurd hafter hnot
  | some pass =>
    obtain ⟨hopened, hreturn⟩ := edge_enters (runInteractive_sound env m).returnScreen
      (passAt_follows env hpass) (by simpa using hnot) hafter
    have hstate := @fold_labels AppState Int (fun j => (passAt env j).map Pass.key)
      (fun j => (runInteractive env j).state) lessonKey (m + 1) (n - (m + 1)) fun i hi =>
        step_lesson env (hsince _ (by omega) (by omega))
    rw [show m + 1 + (n - (m + 1)) = n by omega] at hstate
    have hkept : Kept (runInteractive env (m + 1)).state (runInteractive env n).state :=
      hstate ▸ foldl_lessonKey_kept _ _
    refine ⟨m, hm, ⟨pass, hpass, hopened⟩, hsince, ?_, hkept⟩
    rw [hkept.rest]
    exact hreturn

structure Visited (n : Nat) : Prop where
  visit : ∃ m, Visit env m n ∧
    ∀ pass, passAt env n = some pass → inLessons pass.state.screen = false →
      pass.key = inputEscape ∧
        pass.state = { (runInteractive env n).state with
          screen := (runInteractive env m).state.screen }
  topic : (runInteractive env n).state.screen = .learnTopic → ∃ k < n,
    (runInteractive env k).state.screen = .learnMenu ∧
      (passAt env k).map Pass.key = some inputEnter ∧
      (∀ j, k < j → j ≤ n → (runInteractive env j).state.screen = .learnTopic) ∧
      ((runInteractive env n).state.lesson : Int) =
        ((runInteractive env k).state.learnSelected +
          ((keysRead env (k + 1) (n - (k + 1))).map turn).sum) % teachCount

theorem lessons_visited {n : Nat} (h : inLessons (runInteractive env n).state.screen = true) :
    Visited env n := by
  constructor
  · obtain ⟨m, hvisit⟩ := exists_visit env h
    refine ⟨m, hvisit, fun pass hpass hout => ?_⟩
    obtain ⟨hvalue, -, -⟩ := passAt_some env hpass
    have hlesson := (loopPass_lesson env h (runInteractive env n).consumed
      (runInteractive env n).now).1
    rw [← hvalue] at hlesson
    rw [hlesson] at hout
    obtain ⟨-, hkey, hleft⟩ := lessonKey_leaves h hout
    exact ⟨hkey, hlesson.trans (hleft.trans (congrArg
      (fun screen => { (runInteractive env n).state with screen := screen })
      hvisit.returnScreen))⟩
  · intro htopic
    obtain ⟨k, hk, hnot, hsince⟩ := @exists_entry
      (fun j => (runInteractive env j).state.screen = .learnTopic) n htopic (fun h => by cases h)
    have hafter := hsince (k + 1) (by omega) hk
    cases hpass : passAt env k with
    | none =>
      rw [(passAt_none env hpass).1] at hafter
      exact absurd hafter hnot
    | some pass =>
      obtain ⟨hmenu, hkey⟩ := edge_topic (runInteractive_sound env k).returnScreen
        (passAt_follows env hpass) hnot hafter
      have hopened : (runInteractive env (k + 1)).state.lesson =
          (runInteractive env k).state.learnSelected := by
        rw [step_lesson env (by rw [hmenu]; rfl), hpass, Option.map_some, Option.elim_some, hkey]
        unfold lessonKey
        rw [if_pos hmenu]
        rfl
      have hstate := @fold_labels AppState Int (fun j => (passAt env j).map Pass.key)
        (fun j => (runInteractive env j).state) learnTopicKey (k + 1) (n - (k + 1)) fun i hi =>
          step_topic env (hsince _ (by omega) (by omega))
      rw [show k + 1 + (n - (k + 1)) = n by omega] at hstate
      have hread : (passAt env k).map Pass.key = some inputEnter := by
        rw [hpass, Option.map_some, hkey]
      refine ⟨k, hk, hmenu, hread, hsince, ?_⟩
      rw [hstate, foldl_learnTopicKey_lesson _ (runInteractive_sound env (k + 1)).lesson, hopened]
      rfl

/-- A reader who turns two pages on and one back: `p`, `l`, Enter, `n`, `n`, `b`. -/
def paging : Env :=
  Lives.lastingMachine.env (Lives.attended [ascii "7"]
    [(0, 112), (0, 108), (0, 13), (0, 110), (0, 110), (0, 98)])

theorem lessons_visited_paging :
    ((runInteractive paging 2).state.learnSelected, (runInteractive paging 6).state.lesson) =
        (0, 1) ∧ Visited paging 6 :=
  ⟨by decide +kernel, lessons_visited paging (by decide +kernel)⟩

end RookieTop.Lessons
