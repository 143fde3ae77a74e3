import RookieTop.Passes

/-! The selection of the explorer over whole runs: an index into rows that are sampled,
filtered and sorted anew for every frame, and the process instance that it stands for. -/
namespace RookieTop.Selection

open CLib Trace Sys ProcDir ProcessList CollectOverview Explorer ProcessQuery TerminalInput App
  RunInteractive Passes

def screens : List Screen :=
  [.overview, .processes, .processSearch, .detail, .processLearn, .learnMenu, .learnTopic,
    .confirmTerm, .confirmKill]

structure Sound (state : AppState) : Prop where
  screen : state.screen ∈ screens
  returnScreen : state.returnScreen = .overview ∨ state.returnScreen = .processes
  learnSelected : state.learnSelected < teachCount
  lesson : state.lesson < teachCount
  topic : state.screen = .learnTopic → state.lesson = state.learnSelected

def chosen (state : AppState) : Int × UInt64 := (state.selectedPid, state.selectedStarttime)

def Present (rows : List ProcessRow) (state : AppState) : Prop :=
  ∃ row ∈ rows, (row.pid, row.starttime) = chosen state

/-- The index is that of a row of the selected instance, if there are rows. -/
def Aligned (state : AppState) (rows : List ProcessRow) : Prop :=
  rows = [] ∨ ∃ h : state.selected < rows.length,
    rows[state.selected].pid = state.selectedPid ∧
      rows[state.selected].starttime = state.selectedStarttime

theorem mem_screens (screen : Screen) : screen ∈ screens := by
  cases screen <;> decide

structure Tame (state state' : AppState) : Prop where
  returnScreen : state'.returnScreen = state.returnScreen
  learnSelected : state'.learnSelected = state.learnSelected
  lesson : state'.lesson = state.lesson
  topic : state'.screen = .learnTopic → state.screen = .learnTopic

theorem Tame.rfl {state : AppState} : Tame state state := ⟨Eq.refl _, Eq.refl _, Eq.refl _, id⟩

theorem Tame.trans {a b c : AppState} (hab : Tame a b) (hbc : Tame b c) : Tame a c where
  returnScreen := hbc.returnScreen.trans hab.returnScreen
  learnSelected := hbc.learnSelected.trans hab.learnSelected
  lesson := hbc.lesson.trans hab.lesson
  topic h := hab.topic (hbc.topic h)

theorem Sound.tame {state state' : AppState} (h : Sound state) (htame : Tame state state') :
    Sound state' where
  screen := mem_screens _
  returnScreen := htame.returnScreen ▸ h.returnScreen
  learnSelected := htame.learnSelected ▸ h.learnSelected
  lesson := htame.lesson ▸ h.lesson
  topic hscreen := by
    rw [htame.lesson, htame.learnSelected]
    exact h.topic (htame.topic hscreen)

variable (env : Env)

section Actions

variable {state : AppState}

theorem selectAt_tame (rows : List ProcessRow) (i : Nat) : Tame state (selectAt state rows i) := by
  obtain ⟨selected, pid, starttime, heq⟩ := selectAt_eq state rows i
  rw [heq]
  exact ⟨rfl, rfl, rfl, id⟩

theorem alignSelection_tame (rows : List ProcessRow) : Tame state (alignSelection state rows) := by
  obtain ⟨selected, pid, starttime, heq⟩ := alignSelection_eq state rows
  rw [heq]
  exact ⟨rfl, rfl, rfl, id⟩

theorem openSelectedDetail_tame (row : ProcessRow) {screen : Screen} (hscreen : screen ≠ .learnTopic)
    (n : Nat) : Tame state ((openSelectedDetail env state row screen).value n) := by
  obtain ⟨detail, notice, opened, heq, hopened⟩ := openSelectedDetail_eq env state row screen n
  rw [heq]
  refine ⟨rfl, rfl, rfl, fun htopic => ?_⟩
  rcases hopened with h | h
  · exact absurd (h.symm.trans htopic) hscreen
  · cases h.symm.trans htopic

theorem refreshSelectedDetail_tame {refreshed : AppState} {n : Nat}
    (h : (refreshSelectedDetail env state).value n = some refreshed) :
    Tame state refreshed ∧ chosen refreshed = chosen state := by
  obtain ⟨detail, -, -, -, rfl⟩ := refreshSelectedDetail_some env h
  exact ⟨⟨rfl, rfl, rfl, id⟩, rfl⟩

theorem openConfirmFromDetail_tame (force : Bool) (n : Nat) :
    Tame state ((openConfirmFromDetail env state force).value n) := by
  obtain ⟨detail, notice, opened, heq, hopened⟩ := openConfirmFromDetail_eq env state force n
  rw [heq]
  refine ⟨rfl, rfl, rfl, fun htopic => ?_⟩
  rcases hopened with h | h
  · have := h.symm.trans htopic
    cases force <;> cases this
  · cases h.symm.trans htopic

theorem processes_tame {notice : Bytes} : Tame state { state with notice, screen := .processes } :=
  ⟨rfl, rfl, rfl, fun h => by cases h⟩

theorem detailKey_tame (key : Int) (n : Nat) :
    Tame state ((detailKey env state key).value n).1 := by
  unfold detailKey
  split_ifs
  · exact ⟨rfl, rfl, rfl, fun h => by cases h⟩
  · exact openConfirmFromDetail_tame env false n
  · exact openConfirmFromDetail_tame env true n
  · exact processes_tame
  · exact Tame.rfl

theorem processLearnKey_tame (key : Int) (n : Nat) :
    Tame state ((processLearnKey env state key).value n).1 := by
  unfold processLearnKey
  split_ifs
  · exact openConfirmFromDetail_tame env false n
  · exact openConfirmFromDetail_tame env true n
  · exact processes_tame
  · exact Tame.rfl

theorem confirmKey_tame (force : Bool) (key : Int) (n : Nat) :
    Tame state ((confirmKey env force state key).value n).1 := by
  unfold confirmKey
  split_ifs
  · obtain ⟨notice, hstate⟩ := handleSignalConfirm_state env state force n
    rw [hstate]
    exact processes_tame
  · exact processes_tame
  · exact Tame.rfl

theorem searchKey_tame (key : Int) : Tame state (searchKey state key) := by
  unfold searchKey editProcessSearch
  dsimp only
  split_ifs
  · exact ⟨rfl, rfl, rfl, fun h => by cases h⟩
  · exact ⟨rfl, rfl, rfl, fun h => by cases h⟩
  all_goals exact ⟨rfl, rfl, rfl, id⟩

theorem searchKey_chosen {key : Int} (hkey : key ≠ inputEnter) :
    chosen (searchKey state key) = chosen state := by
  unfold searchKey editProcessSearch
  rw [if_neg hkey]
  dsimp only
  split_ifs <;> rfl

theorem refreshOverview_tame {refreshed : AppState} {n : Nat}
    (h : (refreshOverview env state).value n = some refreshed) :
    Tame state refreshed ∧ chosen refreshed = chosen state := by
  obtain ⟨view, -, rfl⟩ := refreshOverview_some env h
  exact ⟨⟨rfl, rfl, rfl, id⟩, rfl⟩

theorem diagnosisLesson_lt (view : Overview) : diagnosisLesson view < teachCount := by
  unfold diagnosisLesson
  split <;> decide

theorem overviewKey_sound (h : Sound state) (key : Int) : Sound (overviewKey state key) := by
  unfold overviewKey
  split_ifs
  · exact h.tame ⟨rfl, rfl, rfl, fun h => by cases h⟩
  · exact ⟨mem_screens _, Or.inl rfl, diagnosisLesson_lt _, diagnosisLesson_lt _, fun h => by cases h⟩
  · exact h

theorem overviewKey_chosen (key : Int) : chosen (overviewKey state key) = chosen state := by
  unfold overviewKey
  split_ifs <;> rfl

theorem learnMenuKey_sound (h : Sound state) (hscreen : state.screen = .learnMenu) (key : Int) :
    Sound (learnMenuKey state key) := by
  have hmenu : ∀ {p : Prop}, state.screen = .learnTopic → p := fun htopic => by
    rw [hscreen] at htopic
    cases htopic
  unfold learnMenuKey
  split_ifs with hup hdown
  · exact { h with learnSelected := (Nat.sub_le _ _).trans_lt h.learnSelected, topic := hmenu }
  · exact { h with learnSelected := hdown.2, topic := hmenu }
  · exact ⟨mem_screens _, h.returnScreen, h.learnSelected, h.learnSelected, fun _ => rfl⟩
  · refine ⟨mem_screens _, h.returnScreen, h.learnSelected, h.lesson, fun hback => ?_⟩
    rcases h.returnScreen with hreturn | hreturn <;>
      exact absurd (hreturn.symm.trans hback) (by decide)
  · exact h

theorem learnTopicKey_sound (h : Sound state) (key : Int) : Sound (learnTopicKey state key) := by
  have hmod : ∀ lesson, lesson % teachCount < teachCount := fun _ => Nat.mod_lt _ (by decide)
  unfold learnTopicKey
  split_ifs
  · exact ⟨mem_screens _, h.returnScreen, hmod _, hmod _, fun _ => rfl⟩
  · exact ⟨mem_screens _, h.returnScreen, hmod _, hmod _, fun _ => rfl⟩
  · exact ⟨mem_screens _, h.returnScreen, h.learnSelected, h.lesson, fun h => by cases h⟩
  · exact h

theorem learnMenuKey_chosen (key : Int) : chosen (learnMenuKey state key) = chosen state := by
  unfold learnMenuKey
  split_ifs <;> rfl

theorem learnTopicKey_chosen (key : Int) : chosen (learnTopicKey state key) = chosen state := by
  unfold learnTopicKey
  split_ifs <;> rfl

end Actions

section List

variable {state : AppState} {rows : List ProcessRow}

theorem selectAt_aligned {i : Nat} (hi : i < rows.length) : Aligned (selectAt state rows i) rows := by
  unfold selectAt
  rw [List.getElem?_eq_getElem hi]
  exact Or.inr ⟨hi, rfl, rfl⟩

/-- The index is brought to the selected instance, or the instance to the index. -/
theorem alignSelection_aligned (state : AppState) (rows : List ProcessRow) :
    Aligned (alignSelection state rows) rows := by
  unfold alignSelection
  by_cases hnone : rows.length = 0
  · exact Or.inl (List.length_eq_zero_iff.mp hnone)
  · rw [if_neg hnone]
    cases hfind : if 0 < state.selectedPid then rows.findIdx? (isSelected state) else none with
    | none =>
      apply selectAt_aligned
      split_ifs <;> omega
    | some i =>
      split_ifs at hfind
      obtain ⟨hi, hselected, -⟩ := List.findIdx?_eq_some_iff_getElem.mp hfind
      refine Or.inr ⟨hi, ?_⟩
      simpa [isSelected] using hselected

theorem alignSelection_kept (hpos : ∀ row ∈ rows, 0 < row.pid) (h : Present rows state) :
    chosen (alignSelection state rows) = chosen state := by
  obtain ⟨row, hrow, hchosen⟩ := h
  obtain ⟨hpid, hstart⟩ := Prod.mk.inj hchosen
  have hlength := List.length_pos_of_mem hrow
  have hfound : (rows.findIdx? (isSelected state)).isSome := by
    rw [List.findIdx?_isSome, List.any_eq_true]
    exact ⟨row, hrow, by simp [isSelected, hpid, hstart]⟩
  obtain ⟨i, hi⟩ := Option.isSome_iff_exists.mp hfound
  unfold alignSelection
  rw [if_neg (by omega), if_pos (hpid ▸ hpos row hrow), hi]
  rfl

theorem openAt_chosen (h : Aligned state rows) (screen : Screen) (n : Nat) :
    chosen ((openAt env state rows screen).value n) = chosen state := by
  unfold openAt
  cases hrow : rows[state.selected]? with
  | none => rfl
  | some row =>
    obtain ⟨hi, rfl⟩ := List.getElem?_eq_some_iff.mp hrow
    have hopened := openSelectedDetail_opened env state rows[state.selected] screen n
    unfold chosen
    dsimp only
    rw [hopened.pid, hopened.starttime]
    rcases h with hnil | ⟨_, hpid, hstart⟩
    · rw [hnil] at hi
      cases hi
    · rw [hpid, hstart]

theorem openAt_tame {screen : Screen} (hscreen : screen ≠ .learnTopic) (n : Nat) :
    Tame state ((openAt env state rows screen).value n) := by
  unfold openAt
  cases rows[state.selected]? with
  | none => exact Tame.rfl
  | some row => exact openSelectedDetail_tame env row hscreen n

/-- Up and Down move index and instance together. -/
theorem processesKey_aligned (h : Aligned state rows) {key : Int}
    (hkey : key = inputUp ∨ key = inputDown) (n : Nat) :
    Aligned ((processesKey env state rows key).value n) rows := by
  rcases h with hnil | ⟨hi, -⟩
  · exact Or.inl hnil
  · have hlength : 0 < rows.length := by omega
    have hother : ¬ (inputDown = inputUp ∧ 0 < rows.length) := fun h => absurd h.1 (by decide)
    unfold processesKey
    rcases hkey with rfl | rfl
    · rw [if_pos ⟨rfl, hlength⟩]
      apply selectAt_aligned
      split_ifs <;> omega
    · rw [if_neg hother, if_pos ⟨rfl, hlength⟩]
      apply selectAt_aligned
      split_ifs <;> omega

inductive Answered (state : AppState) (rows : List ProcessRow) (key : Int) (n : Nat)
    (result : AppState) : Prop where
  | arrow (i : Nat) (arrow : key = inputUp ∨ key = inputDown) (eq : result = selectAt state rows i)
  | opened (screen : Screen) (process : screen ≠ .learnTopic)
      (eq : result = (openAt env state rows screen).value n)
  | menu (eq : result = { state with returnScreen := .processes, screen := .learnMenu })
  | kept (tame : Tame state result) (kept : chosen result = chosen state)

theorem processesKey_answered (key : Int) (n : Nat) :
    Answered env state rows key n ((processesKey env state rows key).value n) := by
  have hpress := processesKey_press env state rows key
  generalize processesKey env state rows key = x at hpress ⊢
  cases hpress with
  | arrow i arrow => exact .arrow i arrow rfl
  | opens screen mem =>
    refine .opened screen ?_ rfl
    rintro rfl
    simp [opens] at mem
  | search _ => exact .kept ⟨rfl, rfl, rfl, fun h => by cases h⟩ rfl
  | sort _ => exact .kept ⟨rfl, rfl, rfl, id⟩ rfl
  | menu => exact .menu rfl
  | back => exact .kept ⟨rfl, rfl, rfl, fun h => by cases h⟩ rfl
  | none => exact .kept Tame.rfl rfl

theorem processesKey_chosen (h : Aligned state rows) {key : Int} (hup : key ≠ inputUp)
    (hdown : key ≠ inputDown) (n : Nat) :
    chosen ((processesKey env state rows key).value n) = chosen state := by
  cases @processesKey_answered env state rows key n with
  | arrow i arrow _ => exact absurd arrow (not_or.mpr ⟨hup, hdown⟩)
  | opened screen _ eq =>
    rw [eq]
    exact openAt_chosen env h screen n
  | menu eq =>
    rw [eq]
    rfl
  | kept _ kept => exact kept

theorem processesKey_sound (h : Sound state) (rows : List ProcessRow) (key : Int) (n : Nat) :
    Sound ((processesKey env state rows key).value n) := by
  cases @processesKey_answered env state rows key n with
  | arrow i _ eq =>
    rw [eq]
    exact h.tame (selectAt_tame rows i)
  | opened screen process eq =>
    rw [eq]
    exact h.tame (openAt_tame env process n)
  | menu eq =>
    rw [eq]
    exact ⟨mem_screens _, Or.inr rfl, h.learnSelected, h.lesson, fun h => by cases h⟩
  | kept tame _ => exact h.tame tame

theorem shownRows_pos {n : Nat} {row : ProcessRow}
    (h : row ∈ shownRows env state (((sampleProcessRows env).value n).getD [])) : 0 < row.pid := by
  unfold shownRows at h
  dsimp only at h
  rw [(sortProcesses_perm env _ _).mem_iff, processQueryFilter_take] at h
  have hmem := (List.mem_filter.mp h).1
  cases hsample : (sampleProcessRows env).value n with
  | none => simp [hsample] at hmem
  | some sampled =>
    rw [hsample, Option.getD_some] at hmem
    obtain ⟨listed, hlisted, hjoin⟩ := sampleProcessRows_cases env hsample
    obtain ⟨⟨dir, -, hsublist⟩, -⟩ := processListRead_keeps env hlisted
    have hpids : ∀ old ∈ listed, 0 < old.pid := fun old hold => by
      obtain ⟨name, -, hname⟩ := List.mem_filterMap.mp (hsublist.subset (List.mem_map_of_mem hold))
      exact parsePid_pos hname
    rcases hjoin with rfl | ⟨previous, ticks, items, -, -, rfl⟩
    · exact hpids row hmem
    · obtain ⟨old, hold, rfl⟩ := List.mem_map.mp hmem
      rw [joinShare_pid]
      exact hpids old hold

end List

structure ListPass (state : AppState) (n : Nat) (pass : Pass) (rows : List ProcessRow)
    (total : Nat) (aligned : AppState) : Prop where
  sampled : rows = shownRows env state (((sampleProcessRows env).value (n + 1)).getD [])
  drawn : pass.frame.map Frame.drawing = some (.processes rows total aligned)
  inRange : Aligned aligned rows
  /-- The highlight stays on an instance that is still listed. -/
  kept : Present rows state → chosen aligned = chosen state
  arrows : pass.key = inputUp ∨ pass.key = inputDown → Aligned pass.state rows
  others : pass.key ≠ inputUp → pass.key ≠ inputDown → chosen pass.state = chosen aligned

/-- Why a pass may leave another instance selected. -/
inductive Moves (state : AppState) (n : Nat) (pass : Pass) : Prop where
  | arrow (list : state.screen = .processes) (key : pass.key = inputUp ∨ pass.key = inputDown)
  | search (screen : state.screen = .processSearch) (key : pass.key = inputEnter)
  | absent (rows : List ProcessRow) (total : Nat) (aligned : AppState)
      (list : state.screen = .processes) (frame : ListPass env state n pass rows total aligned)
      (gone : ¬ Present rows state)

section Pass

variable {state : AppState}

theorem noticeSampled_tame (sampled : Option (List ProcessRow)) :
    Tame state (noticeSampled state sampled) ∧
      chosen (noticeSampled state sampled) = chosen state ∧
      ∀ rows, shownRows env (noticeSampled state sampled) rows = shownRows env state rows := by
  obtain ⟨notice, heq⟩ := noticeSampled_eq state sampled
  rw [heq]
  exact ⟨⟨rfl, rfl, rfl, id⟩, rfl, fun _ => rfl⟩

theorem processesPass_list (term : TerminalSize) (state : AppState) (consumed n : Nat) :
    ∃ rows total aligned, ListPass env state n
        ((processesPass env term state consumed).value (n + 1)) rows total aligned ∧
      Tame state aligned ∧
      ∃ key t, ((processesPass env term state consumed).value (n + 1)).state =
        (processesKey env aligned rows key).value t := by
  obtain ⟨htame, hchosen, hshown⟩ :=
    @noticeSampled_tame env state ((sampleProcessRows env).value (n + 1))
  unfold processesPass showProcesses
  simp only [Calls.value_bind, Calls.value_pure, hshown]
  have haligned := alignSelection_aligned (noticeSampled state ((sampleProcessRows env).value (n + 1)))
    (shownRows env state (((sampleProcessRows env).value (n + 1)).getD []))
  refine ⟨_, _, _, ⟨rfl, rfl, haligned, ?_, ?_, ?_⟩, htame.trans (alignSelection_tame _), _, _, rfl⟩
  · intro hpresent
    rw [← hchosen]
    apply alignSelection_kept fun row hrow => shownRows_pos env hrow
    unfold Present
    rw [hchosen]
    exact hpresent
  · exact fun harrow => processesKey_aligned env haligned harrow _
  · exact fun hup hdown => processesKey_chosen env haligned hup hdown _

structure Keeps (state : AppState) (n : Nat) (pass : Pass) : Prop where
  sound : Sound pass.state
  moves : chosen pass.state ≠ chosen state → Moves env state n pass

variable (hsound : Sound state)

include hsound

theorem processesPass_keeps (hlist : state.screen = .processes) (term : TerminalSize)
    (consumed n : Nat) :
    Keeps env state n ((processesPass env term state consumed).value (n + 1)) := by
  obtain ⟨rows, total, aligned, hpass, htame, key, t, hstate⟩ :=
    processesPass_list env term state consumed n
  constructor
  · rw [hstate]
    exact processesKey_sound env (hsound.tame htame) rows key t
  · intro hmoved
    by_cases harrow : ((processesPass env term state consumed).value (n + 1)).key = inputUp ∨
        ((processesPass env term state consumed).value (n + 1)).key = inputDown
    · exact .arrow hlist harrow
    · rw [not_or] at harrow
      refine .absent rows total aligned hlist hpass fun hpresent => hmoved ?_
      rw [hpass.others harrow.1 harrow.2, hpass.kept hpresent]

theorem overviewPass_keeps (term : TerminalSize) (consumed n t : Nat) :
    Keeps env state n ((overviewPass env term state consumed).value t) := by
  unfold overviewPass
  simp only [Calls.value_bind]
  cases hrefresh : (refreshOverview env state).value t with
  | none => exact ⟨hsound.tame ⟨rfl, rfl, rfl, id⟩, fun hmoved => absurd rfl hmoved⟩
  | some refreshed =>
    obtain ⟨htame, hchosen⟩ := refreshOverview_tame env hrefresh
    refine ⟨overviewKey_sound (hsound.tame htame) _, fun hmoved => absurd ?_ hmoved⟩
    exact (overviewKey_chosen _).trans hchosen

theorem detailPass_keeps {draw : ProcessDetail → Drawing}
    {act : AppState → Int → Calls (AppState × List KillCall)}
    (htame : ∀ refreshed : AppState, ∀ key t, Tame refreshed ((act refreshed key).value t).1)
    (hacts : ∀ refreshed : AppState, refreshed.screen = state.screen → ∀ key t,
      Acted env refreshed key ((act refreshed key).value t))
    (term : TerminalSize) (consumed n t : Nat) :
    Keeps env state n ((detailPass env draw act term state consumed).value t) := by
  unfold detailPass
  simp only [Calls.value_bind]
  cases hrefresh : (refreshSelectedDetail env state).value t with
  | none => exact ⟨hsound.tame processes_tame, fun hmoved => absurd rfl hmoved⟩
  | some refreshed =>
    obtain ⟨hsame, hchosen⟩ := refreshSelectedDetail_tame env hrefresh
    obtain ⟨detail, -, -, -, rfl⟩ := refreshSelectedDetail_some env hrefresh
    refine ⟨(hsound.tame hsame).tame (htame _ _ _), fun hmoved => absurd ?_ hmoved⟩
    have hacted := fun key u => hacts { state with selectedDetail := detail } rfl key u
    exact (Prod.ext (hacted _ _).pid (hacted _ _).starttime).trans hchosen

omit hsound in
theorem plainPass_keeps {drawing : Drawing} {act : AppState → Int → AppState}
    (hact : ∀ key, Sound (act state key))
    (hchosen : ∀ key, chosen (act state key) = chosen state ∨
      state.screen = .processSearch ∧ key = inputEnter)
    (term : TerminalSize) (consumed n t : Nat) :
    Keeps env state n ((plainPass env drawing act term state consumed).value t) := by
  refine ⟨hact _, fun hmoved => ?_⟩
  rcases hchosen ((plainPass env drawing act term state consumed).value t).key with
    hsame | ⟨hsearch, hkey⟩
  · exact absurd hsame hmoved
  · exact .search hsearch hkey

theorem screenPass_keeps (term : TerminalSize) (consumed n : Nat) :
    Keeps env state n ((screenPass env term state consumed).value (n + 1)) := by
  have hdetail := fun draw act htame hacts =>
    @detailPass_keeps env state hsound draw act htame hacts term consumed n (n + 1)
  unfold screenPass
  cases hscreen : state.screen with
  | overview => exact overviewPass_keeps env hsound term consumed n (n + 1)
  | processes => exact processesPass_keeps env hsound hscreen term consumed n
  | processSearch =>
    apply plainPass_keeps env fun key => hsound.tame (searchKey_tame key)
    intro key
    by_cases hkey : key = inputEnter
    · exact Or.inr ⟨hscreen, hkey⟩
    · exact Or.inl (searchKey_chosen hkey)
  | learnMenu =>
    exact plainPass_keeps env (learnMenuKey_sound hsound hscreen)
      (fun key => Or.inl (learnMenuKey_chosen key)) term consumed n (n + 1)
  | learnTopic =>
    exact plainPass_keeps env (learnTopicKey_sound hsound)
      (fun key => Or.inl (learnTopicKey_chosen key)) term consumed n (n + 1)
  | detail =>
    rw [hscreen] at hdetail
    exact hdetail .detail (detailKey env) (fun _ => detailKey_tame env)
      fun _ h => detailKey_acted env h
  | processLearn =>
    rw [hscreen] at hdetail
    exact hdetail .processLearning (processLearnKey env) (fun _ => processLearnKey_tame env)
      fun _ h => processLearnKey_acted env h
  | confirmTerm =>
    rw [hscreen] at hdetail
    exact hdetail (.confirm · false) (confirmKey env false) (fun _ => confirmKey_tame env false)
      fun _ h => confirmKey_acted env h
  | confirmKill =>
    rw [hscreen] at hdetail
    exact hdetail (.confirm · true) (confirmKey env true) (fun _ => confirmKey_tame env true)
      fun _ h => confirmKey_acted env h

theorem loopPass_keeps (consumed n : Nat) :
    Keeps env state n ((loopPass env state consumed).value n) :=
  screenPass_keeps env hsound (env.window n) consumed n

end Pass

theorem initial_sound : Sound AppState.initial :=
  ⟨mem_screens _, Or.inl rfl, by decide, by decide, fun h => by cases h⟩

theorem runInteractive_sound (n : Nat) : Sound (runInteractive env n).state := by
  induction n with
  | zero => exact initial_sound
  | succ n ih =>
    cases hpass : passAt env n with
    | none =>
      rw [(passAt_none env hpass).1]
      exact ih
    | some pass =>
      obtain ⟨hvalue, hstate, -⟩ := passAt_some env hpass
      rw [hstate, hvalue]
      exact (loopPass_keeps env ih _ _).sound

/-- The start of step `n`, the list where it shows one, and the step's end. -/
structure Tracked (n : Nat) : Prop where
  sound : Sound (runInteractive env n).state
  list : ∀ pass, passAt env n = some pass → (runInteractive env n).state.screen = .processes →
    ∃ rows total aligned, ListPass env (runInteractive env n).state (runInteractive env n).now pass
      rows total aligned
  moves : chosen (runInteractive env (n + 1)).state ≠ chosen (runInteractive env n).state →
    ∃ pass, passAt env n = some pass ∧
      Moves env (runInteractive env n).state (runInteractive env n).now pass

theorem selection_tracked (n : Nat) : Tracked env n := by
  have hsound := runInteractive_sound env n
  refine ⟨hsound, ?_, ?_⟩
  · intro pass hpass hlist
    obtain ⟨rows, total, aligned, hlisted, -⟩ := processesPass_list env
      (env.window (runInteractive env n).now) (runInteractive env n).state
      (runInteractive env n).consumed (runInteractive env n).now
    have hvalue : pass = (processesPass env (env.window (runInteractive env n).now)
        (runInteractive env n).state (runInteractive env n).consumed).value
          ((runInteractive env n).now + 1) := by
      rw [(passAt_some env hpass).1]
      simp only [loopPass, screenPass, hlist, Calls.value_bind, Calls.value_call, Calls.after_call]
    rw [hvalue]
    exact ⟨rows, total, aligned, hlisted⟩
  · intro hmoved
    cases hpass : passAt env n with
    | none =>
      rw [(passAt_none env hpass).1] at hmoved
      exact absurd rfl hmoved
    | some pass =>
      obtain ⟨hvalue, hstate, -⟩ := passAt_some env hpass
      rw [hstate, hvalue] at hmoved
      rw [hvalue]
      exact ⟨_, rfl, (loopPass_keeps env hsound _ _).moves hmoved⟩

end RookieTop.Selection
