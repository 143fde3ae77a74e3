import RookieTop.Input

/-! Why a run ends, and with which exit code. -/
namespace RookieTop.Ending

open CLib Trace Sys ProcessList CollectOverview Explorer TerminalInput App RunInteractive Passes
  SearchTyping TypeAhead Input

variable (env : Env)

/-- What ends the run after pass `n`, or instead of it. -/
inductive Cause (n : Nat) : Int → Prop
  | stopped (asked : env.stopped (runInteractive env n).now = true) : Cause n 0
  /-- `q` where it is not typed into the search. -/
  | quit (pass : Pass) (passed : passAt env n = some pass)
      (screen : (runInteractive env n).state.screen ≠ .processSearch)
      (key : pass.key = keyOf 'q' ∨ pass.key = keyOf 'Q') : Cause n 0
  | unread (going : env.stopped (runInteractive env n).now = false)
      (screen : (runInteractive env n).state.screen = .overview)
      (failed : (collectOverview env).value ((runInteractive env n).now + 1) = none) : Cause n 1
  /-- The `poll` that waits for a key behind a frame failed. One that fails inside an escape
  sequence only makes it an Esc. -/
  | unpolled (pass : Pass) (frame : Frame) (passed : passAt env n = some pass)
      (drawn : pass.frame = some frame) (failed : env.pollFault (frame.time + 1) = some .failed) :
      Cause n 1

section Pass

variable {env} {consumed n : Nat} {state : AppState}

theorem key_neg_iff :
    ((terminalInputReadKey env consumed).value n).1 < 0 ↔ env.pollFault n = some .failed := by
  have hready : (waitInput env consumed).value n < 0 ↔ env.pollFault n = some .failed := by
    unfold waitInput
    rw [Calls.value_call]
    cases env.pollFault n with
    | none => dsimp only; split_ifs <;> simp
    | some fault => cases fault <;> simp
  rw [← hready]
  unfold terminalInputReadKey
  simp only [Calls.value_bind]
  split_ifs with hnone hzero
  · simp [inputNone, hzero]
  · simp only [Calls.value_pure]
    omega
  have hpos : ¬ (waitInput env consumed).value n < 0 := by omega
  have hcodes : 0 ≤ inputEnter ∧ 0 ≤ inputEscape ∧ 0 ≤ inputUp ∧ 0 ≤ inputDown := by decide
  obtain ⟨henter, hescape, hup, hdown⟩ := hcodes
  simp only [hpos, iff_false, not_lt, Calls.value_bind]
  cases (readByte env consumed).value ((waitInput env consumed).after n) with
  | none => exact le_refl _
  | some first =>
    simp only [Calls.value_ite, Calls.value_bind, Calls.value_pure]
    split_ifs
    · exact henter
    · exact Int.natCast_nonneg _
    · exact hescape
    · cases (readByte env (consumed + 1)).value _ with
      | none => exact hescape
      | some second =>
        simp only [Calls.value_ite, Calls.value_bind, Calls.value_pure]
        split_ifs
        · exact hescape
        · exact hescape
        · cases (readByte env (consumed + 2)).value _ with
          | none => exact hescape
          | some third =>
            simp only [Calls.value_ite, Calls.value_pure]
            split_ifs
            · exact hup
            · exact hdown
            · exact hescape

theorem asked_key_neg {pass : Pass} (h : Asked env consumed pass) :
    pass.key < 0 ↔ ∃ frame, pass.frame = some frame ∧
      env.pollFault (frame.time + 1) = some .failed := by
  cases h with
  | silent drawn key _ => simp [drawn, key, inputNone]
  | asked frame drawn answer =>
    have hkey : pass.key = ((terminalInputReadKey env consumed).value (frame.time + 1)).1 :=
      congrArg Prod.fst answer
    rw [hkey, key_neg_iff]
    simp [drawn]

theorem detailPass_failed (draw : ProcessDetail → Drawing)
    (act : AppState → Int → Calls (AppState × List KillCall)) (term : TerminalSize) :
    ((detailPass env draw act term state consumed).value n).failed = false := by
  unfold detailPass
  rw [Calls.value_bind]
  cases (refreshSelectedDetail env state).value n <;> rfl

theorem loopPass_failed :
    ((loopPass env state consumed).value n).failed = true ↔
      state.screen = .overview ∧ (collectOverview env).value (n + 1) = none := by
  unfold loopPass screenPass
  rw [Calls.value_bind, Calls.value_call, Calls.after_call]
  cases hscreen : state.screen with
  | overview =>
    dsimp only
    unfold overviewPass refreshOverview
    simp only [Calls.value_bind, true_and]
    cases (collectOverview env).value (n + 1) with
    | none => simp
    | some view => simp [Calls.value_bind]
  | processes => simp [processesPass, showProcesses, Calls.value_bind]
  | processSearch => simp [plainPass, Calls.value_bind]
  | learnMenu => simp [plainPass, Calls.value_bind]
  | learnTopic => simp [plainPass, Calls.value_bind]
  | detail => simp [detailPass_failed]
  | processLearn => simp [detailPass_failed]
  | confirmTerm => simp [detailPass_failed]
  | confirmKill => simp [detailPass_failed]

theorem failed_key (h : ((loopPass env state consumed).value n).failed = true) :
    ((loopPass env state consumed).value n).key = inputNone := by
  obtain ⟨hscreen, hnone⟩ := loopPass_failed.mp h
  unfold loopPass screenPass overviewPass refreshOverview
  simp only [Calls.value_bind, Calls.value_call, Calls.after_call, hscreen, hnone,
    Calls.value_pure]

end Pass

theorem passAt_isSome (n : Nat) :
    (passAt env n).isSome ↔
      (runInteractive env n).exit = none ∧ env.stopped (runInteractive env n).now = false := by
  unfold passAt passOf
  split
  · rename_i h
    rcases h with h | h
    · simp [Option.isSome_iff_ne_none.mp h]
    · simp [h]
  · rename_i h
    simpa using h

theorem exitAfter_eq_one {screen : Screen} {pass : Pass} :
    exitAfter screen pass = some 1 ↔ pass.failed = true ∨ pass.key < 0 := by
  unfold exitAfter
  split_ifs with hbad hquit <;> simp [hbad]

theorem exitAfter_eq_zero {screen : Screen} {pass : Pass} :
    exitAfter screen pass = some 0 ↔ ¬ (pass.failed = true ∨ pass.key < 0) ∧
      screen ≠ .processSearch ∧ (pass.key = keyOf 'q' ∨ pass.key = keyOf 'Q') := by
  unfold exitAfter
  split_ifs with hbad hquit
  · simp [hbad]
  · simp [hbad, hquit]
  · simp [hbad, hquit]

theorem exitAfter_cases {screen : Screen} {pass : Pass} {code : Int}
    (h : exitAfter screen pass = some code) : code = 0 ∨ code = 1 := by
  unfold exitAfter at h
  split_ifs at h
  · exact Or.inr (Option.some.inj h).symm
  · exact Or.inl (Option.some.inj h).symm

/-- What a run is ended by, and how, the moment that it ends. -/
theorem exit_succ_iff {n : Nat} (hgoing : (runInteractive env n).exit = none) (code : Int) :
    (runInteractive env (n + 1)).exit = some code ↔ Cause env n code := by
  cases hpass : passAt env n with
  | none =>
    have hstopped : env.stopped (runInteractive env n).now = true := by
      have hnone := (passAt_isSome env n).not.mp (by rw [hpass]; decide)
      simpa [hgoing] using hnone
    have hexit : (runInteractive env (n + 1)).exit = some 0 := by
      rw [runInteractive_succ, step, show passOf env (runInteractive env n) = none from hpass,
        hgoing]
      rfl
    rw [hexit]
    constructor
    · intro h
      cases Option.some.inj h
      exact .stopped hstopped
    · intro h
      cases h with
      | stopped _ => rfl
      | quit pass passed _ _ => cases hpass.symm.trans passed
      | unread going _ _ => cases hstopped.symm.trans going
      | unpolled pass frame passed _ _ => cases hpass.symm.trans passed
  | some pass =>
    have hgoes := ((passAt_isSome env n).mp (by rw [hpass]; rfl)).2
    obtain ⟨hvalue, -, -, -⟩ := passAt_some env hpass
    have hfailed := @loopPass_failed env (runInteractive env n).consumed (runInteractive env n).now
      (runInteractive env n).state
    have hkey := asked_key_neg (@loopPass_asked env (runInteractive env n).consumed
      (runInteractive env n).state (runInteractive env n).now)
    have hnone := @failed_key env (runInteractive env n).consumed (runInteractive env n).now
      (runInteractive env n).state
    rw [← hvalue] at hfailed hkey hnone
    rw [passAt_exit env hpass]
    constructor
    · intro h
      rcases exitAfter_cases h with rfl | rfl
      · obtain ⟨-, hscreen, hq⟩ := exitAfter_eq_zero.mp h
        exact .quit pass hpass hscreen hq
      · rcases exitAfter_eq_one.mp h with hbad | hbad
        · obtain ⟨hscreen, hread⟩ := hfailed.mp hbad
          exact .unread hgoes hscreen hread
        · obtain ⟨frame, hframe, hpoll⟩ := hkey.mp hbad
          exact .unpolled pass frame hpass hframe hpoll
    · intro h
      cases h with
      | stopped asked => rw [hgoes] at asked; cases asked
      | quit other passed screen key =>
        cases hpass.symm.trans passed
        refine exitAfter_eq_zero.mpr ⟨?_, screen, key⟩
        rintro (hbad | hbad)
        · rw [hnone hbad] at key
          exact absurd key (by decide)
        · rcases key with h | h <;> exact absurd (h ▸ hbad) (by decide)
      | unread _ screen failed => exact exitAfter_eq_one.mpr (Or.inl (hfailed.mpr ⟨screen, failed⟩))
      | unpolled other frame passed drawn failed =>
        cases hpass.symm.trans passed
        exact exitAfter_eq_one.mpr (Or.inr (hkey.mpr ⟨frame, drawn, failed⟩))

theorem exit_keeps {n : Nat} {code : Int} (h : (runInteractive env n).exit = some code) :
    (runInteractive env (n + 1)).exit = some code := by
  have hnone : passOf env (runInteractive env n) = none := by
    unfold passOf
    rw [if_pos (Or.inl (by rw [h]; rfl))]
  rw [runInteractive_succ, step, hnone, h]
  rfl

/-- A run has ended with a code just when something with that code has ended it, once. Neither
a process list that can not be read nor a process that is gone ends it, nor does a `q` that is
typed into the search. -/
theorem exit_iff (n : Nat) (code : Int) :
    (runInteractive env n).exit = some code ↔
      ∃ m < n, (runInteractive env m).exit = none ∧ Cause env m code := by
  induction n with
  | zero =>
    constructor
    · intro h
      cases h
    · rintro ⟨m, hm, -⟩
      exact absurd hm (Nat.not_lt_zero m)
  | succ n ih =>
    cases hexit : (runInteractive env n).exit with
    | none =>
      rw [exit_succ_iff env hexit]
      constructor
      · intro h
        exact ⟨n, Nat.lt_succ_self n, hexit, h⟩
      · rintro ⟨m, hm, hgoing, hcause⟩
        rcases Nat.lt_or_eq_of_le (Nat.le_of_lt_succ hm) with hlt | rfl
        · have hended := ih.mpr ⟨m, hlt, hgoing, hcause⟩
          rw [hexit] at hended
          cases hended
        · exact hcause
    | some other =>
      rw [exit_keeps env hexit]
      rw [hexit] at ih
      rw [ih]
      constructor
      · rintro ⟨m, hm, hrest⟩
        exact ⟨m, Nat.lt_succ_of_lt hm, hrest⟩
      · rintro ⟨m, hm, hgoing, hcause⟩
        refine ⟨m, lt_of_le_of_ne (Nat.le_of_lt_succ hm) ?_, hgoing, hcause⟩
        rintro rfl
        rw [hexit] at hgoing
        cases hgoing

end RookieTop.Ending
