import RookieTop.Confirm

/-! Key presses that wait in the terminal. A byte is read behind the frame of its pass,
but it may have arrived long before that frame was drawn. -/
namespace RookieTop.TypeAhead

open CLib Trace Sys ProcessList App TerminalInput RunInteractive Passes Confirm Lives

variable (env : Env)

/-- Where a call draws a frame, it does so at once, and then reads the key that it
reports from behind `consumed` bytes. -/
structure Prompted (consumed n : Nat) (x : Calls Pass) : Prop where
  flushed : ∀ frame, (x.value n).frame = some frame → n ≤ frame.time ∧
    (x.value n).key = ((terminalInputReadKey env consumed).value (frame.time + 1)).1 ∧
    (terminalInputReadKey env consumed).after (frame.time + 1) ≤ x.after n

section Prompted

variable {env} {consumed n : Nat}

theorem prompted_pure {pass : Pass} (h : pass.frame = none) :
    Prompted env consumed n (pure pass) := by
  constructor
  intro frame hframe
  rw [Calls.value_pure, h] at hframe
  cases hframe

theorem Prompted.bind {α : Type} {x : Calls α} {f : α → Calls Pass}
    (h : Prompted env consumed (x.after n) (f (x.value n))) : Prompted env consumed n (x >>= f) := by
  constructor
  intro frame hframe
  obtain ⟨htime, hkey, hafter⟩ := h.flushed frame hframe
  have hle := x.le_after n
  rw [Calls.after_bind]
  exact ⟨by omega, hkey, hafter⟩

theorem prompt_after (term : TerminalSize) (drawing : Drawing) :
    (prompt env term drawing consumed).after n =
      (terminalInputReadKey env consumed).after (n + 1) := by
  unfold prompt
  simp only [Calls.after_bind, Calls.after_call, Calls.after_pure]

theorem prompted_prompt {term : TerminalSize} {drawing : Drawing}
    {post : Frame × Int × Nat → Calls Pass}
    (hpost : ∀ answer t, ((post answer).value t).frame = some answer.1 ∧
      ((post answer).value t).key = answer.2.1) :
    Prompted env consumed n (prompt env term drawing consumed >>= post) := by
  constructor
  intro frame hframe
  rw [Calls.value_bind, (hpost _ _).1] at hframe
  cases Option.some.inj hframe
  rw [Calls.value_bind, (hpost _ _).2, Calls.after_bind]
  refine ⟨le_refl n, rfl, ?_⟩
  have hafter := @prompt_after env consumed n term drawing
  exact le_trans (le_of_eq hafter.symm) (Calls.le_after _ _)

theorem plainPass_prompted (drawing : Drawing) (act : AppState → Int → AppState)
    (term : TerminalSize) (state : AppState) :
    Prompted env consumed n (plainPass env drawing act term state consumed) := by
  unfold plainPass
  apply prompted_prompt
  exact fun answer t => ⟨rfl, rfl⟩

theorem overviewPass_prompted (term : TerminalSize) (state : AppState) :
    Prompted env consumed n (overviewPass env term state consumed) := by
  unfold overviewPass
  apply Prompted.bind
  cases (refreshOverview env state).value n with
  | none => exact prompted_pure rfl
  | some refreshed =>
    apply prompted_prompt
    exact fun answer t => ⟨rfl, rfl⟩

theorem processesPass_prompted (term : TerminalSize) (state : AppState) :
    Prompted env consumed n (processesPass env term state consumed) := by
  unfold processesPass showProcesses
  apply Prompted.bind
  apply prompted_prompt
  exact fun answer t => ⟨rfl, rfl⟩

theorem detailPass_prompted (draw : ProcessDetail → Drawing)
    (act : AppState → Int → Calls (AppState × List KillCall)) (term : TerminalSize)
    (state : AppState) :
    Prompted env consumed n (detailPass env draw act term state consumed) := by
  unfold detailPass
  apply Prompted.bind
  cases (refreshSelectedDetail env state).value n with
  | none => exact prompted_pure rfl
  | some refreshed =>
    apply prompted_prompt
    exact fun answer t => ⟨rfl, rfl⟩

end Prompted

theorem loopPass_prompted (state : AppState) (consumed n : Nat) :
    Prompted env consumed n (loopPass env state consumed) := by
  unfold loopPass
  apply Prompted.bind
  unfold screenPass
  cases state.screen with
  | overview => exact overviewPass_prompted _ state
  | processes => exact processesPass_prompted _ state
  | processSearch => exact plainPass_prompted _ _ _ state
  | detail => exact detailPass_prompted _ _ _ state
  | processLearn => exact detailPass_prompted _ _ _ state
  | learnMenu => exact plainPass_prompted _ _ _ state
  | learnTopic => exact plainPass_prompted _ _ _ state
  | confirmTerm => exact detailPass_prompted _ _ _ state
  | confirmKill => exact detailPass_prompted _ _ _ state

theorem readByte_some {consumed n : Nat} {byte : UInt8}
    (h : (readByte env consumed).value n = some byte) :
    ∃ time, env.typed consumed = some (time, byte) ∧ time ≤ n := by
  unfold readByte at h
  rw [Calls.value_call] at h
  cases hfault : env.readFault n with
  | some _ => simp [hfault] at h
  | none =>
    simp only [hfault] at h
    split_ifs at h with harrived
    obtain ⟨⟨time, _⟩, htyped, rfl⟩ := Option.map_eq_some_iff.mp h
    simp only [arrived, htyped, decide_eq_true_eq] at harrived
    exact ⟨time, htyped, harrived⟩

theorem escape_not_char {consumed n : Nat} {time : Nat}
    (htyped : env.typed consumed = some (time, 27)) :
    ((terminalInputReadKey env consumed).value n).1 ∈
      [inputNone, -1, inputEscape, inputUp, inputDown] := by
  unfold terminalInputReadKey
  simp only [Calls.value_bind]
  split_ifs
  · simp
  · simp
  · simp only [Calls.value_bind]
    cases hread : (readByte env consumed).value ((waitInput env consumed).after n) with
    | none => simp
    | some first =>
      obtain ⟨_, hfirst, -⟩ := readByte_some env hread
      obtain ⟨rfl, rfl⟩ := Prod.mk.inj (Option.some.inj (htyped.symm.trans hfirst))
      simp only [Calls.value_bind, Calls.value_ite, Calls.value_pure]
      rw [if_neg (by decide), if_neg (by decide)]
      split_ifs
      · simp
      · cases (readByte env (consumed + 1)).value _ with
        | none => simp
        | some second =>
          simp only [Calls.value_bind, Calls.value_ite, Calls.value_pure]
          split_ifs
          · simp
          · simp
          · cases (readByte env (consumed + 2)).value _ with
            | none => simp
            | some third =>
              simp only [Calls.value_ite, Calls.value_pure]
              split_ifs <;> simp

theorem terminalInputReadKey_byte {consumed n : Nat} {key : Int}
    (h : ((terminalInputReadKey env consumed).value n).1 = key) (hlow : 27 < key)
    (hhigh : key < 256) :
    ∃ time byte, env.typed consumed = some (time, byte) ∧ (byte.toNat : Int) = key ∧
      time < (terminalInputReadKey env consumed).after n := by
  have hnot : ∀ codes : List Int, key ∈ codes → (∀ code ∈ codes, code < 28 ∨ 256 ≤ code) → False :=
    fun codes hmem hcodes => by
      have := hcodes key hmem
      omega
  by_cases hescape : ∃ time, env.typed consumed = some (time, 27)
  · obtain ⟨time, htyped⟩ := hescape
    have hcodes := @escape_not_char env consumed n time htyped
    rw [h] at hcodes
    exact (hnot _ hcodes (by decide)).elim
  unfold terminalInputReadKey at h ⊢
  simp only [Calls.value_bind, Calls.after_bind] at h ⊢
  split_ifs at h ⊢
  · exact (hnot [inputNone] (by simp [← h]) (by decide)).elim
  · exact (hnot [-1] (by simp [← h]) (by decide)).elim
  · simp only [Calls.value_bind, Calls.after_bind] at h ⊢
    cases hread : (readByte env consumed).value ((waitInput env consumed).after n) with
    | none =>
      rw [hread] at h
      exact (hnot [inputNone] (by simp [← h]) (by decide)).elim
    | some first =>
      obtain ⟨time, htyped, htime⟩ := readByte_some env hread
      have hne : first ≠ 27 := fun heq => hescape ⟨time, heq ▸ htyped⟩
      simp only [hread, hne, ne_eq, not_false_eq_true, if_true, Calls.value_ite,
        Calls.value_pure, Calls.after_ite, Calls.after_pure, ite_self] at h ⊢
      refine ⟨time, first, htyped, ?_, ?_⟩
      · split_ifs at h
        · exact (hnot [inputEnter] (by simp [← h]) (by decide)).elim
        · exact h
      · exact Nat.lt_succ_of_le htime

def Drawn (n : Nat) (frame : Frame) : Prop :=
  ∃ pass, passAt env n = some pass ∧ pass.frame = some frame

structure LastFrame (time : Nat) (frame : Frame) : Prop where
  drawn : ∃ n, Drawn env n frame
  before : frame.time ≤ time
  last : ∀ n later, Drawn env n later → later.time ≤ time → later.time ≤ frame.time

/-- When the first byte of the key that pass `n` is to read reaches the terminal. -/
def PressedAt (n time : Nat) : Prop :=
  ∃ byte, env.typed (runInteractive env n).consumed = some (time, byte)

/-- The user saw the target highlighted before asking to stop it, and the question
before saying yes. -/
def ReallyConfirmed (n : Nat) (call : KillCall) : Prop :=
  ∃ force m, OpenedBy env m n force call.pid call.starttime ∧
    (∃ time frame, PressedAt env m time ∧ LastFrame env time frame ∧
      Highlights frame.drawing call.pid call.starttime) ∧
    ∃ time j frame, PressedAt env n time ∧ m < j ∧ j ≤ n ∧ Drawn env j frame ∧
      frame.time ≤ time ∧ Asks frame.drawing force call.pid call.starttime

/-- The key of pass `n` is read behind its frame. Where it is also pressed behind it,
this frame is what the user saw. -/
structure Answers (n : Nat) (pass : Pass) (frame : Frame) : Prop where
  drawn : pass.frame = some frame
  read : pass.key =
    ((terminalInputReadKey env (runInteractive env n).consumed).value (frame.time + 1)).1
  pressed : ∃ time, PressedAt env n time ∧ (frame.time ≤ time → LastFrame env time frame)

theorem now_mono : Monotone fun n => (runInteractive env n).now := by
  apply monotone_nat_of_le_succ
  intro n
  cases hpass : passAt env n with
  | none => rw [(passAt_none env hpass).2]
  | some pass =>
    rw [(passAt_some env hpass).2.2.2]
    exact Calls.le_after _ _

theorem passAt_prompted {n : Nat} {pass : Pass} (h : passAt env n = some pass) {frame : Frame}
    (hframe : pass.frame = some frame) :
    (runInteractive env n).now ≤ frame.time ∧
      pass.key =
        ((terminalInputReadKey env (runInteractive env n).consumed).value (frame.time + 1)).1 ∧
      (terminalInputReadKey env (runInteractive env n).consumed).after (frame.time + 1) ≤
        (runInteractive env (n + 1)).now := by
  obtain ⟨rfl, -, -, hnow⟩ := passAt_some env h
  rw [hnow]
  exact (loopPass_prompted env _ _ _).flushed frame hframe

theorem Drawn.time_lt {n : Nat} {frame : Frame} (h : Drawn env n frame) :
    (runInteractive env n).now ≤ frame.time ∧ frame.time < (runInteractive env (n + 1)).now := by
  obtain ⟨pass, hpass, hframe⟩ := h
  obtain ⟨hle, -, hafter⟩ := passAt_prompted env hpass hframe
  have := Calls.le_after (terminalInputReadKey env (runInteractive env n).consumed)
    (frame.time + 1)
  exact ⟨hle, by omega⟩

theorem lastFrame_of_drawn {n time : Nat} {frame : Frame} (h : Drawn env n frame)
    (hbefore : frame.time ≤ time) (hnext : time < (runInteractive env (n + 1)).now) :
    LastFrame env time frame := by
  refine ⟨⟨n, h⟩, hbefore, fun j later hlater hle => ?_⟩
  have hframe := h.time_lt env
  have hjframe := hlater.time_lt env
  rcases Nat.lt_trichotomy j n with hlt | rfl | hlt
  · have hmono := now_mono env (show j + 1 ≤ n from hlt)
    dsimp only at hmono
    omega
  · obtain ⟨pass, hpass, hdrawn⟩ := h
    obtain ⟨pass', hpass', hdrawn'⟩ := hlater
    cases Option.some.inj (hpass.symm.trans hpass')
    cases Option.some.inj (hdrawn.symm.trans hdrawn')
    exact le_refl _
  · have hmono := now_mono env (show n + 1 ≤ j from hlt)
    dsimp only at hmono
    omega

theorem answers_of_key {n : Nat} {pass : Pass} (h : passAt env n = some pass) {frame : Frame}
    (hframe : pass.frame = some frame) (hlow : 27 < pass.key) (hhigh : pass.key < 256) :
    Answers env n pass frame := by
  obtain ⟨-, hkey, hafter⟩ := passAt_prompted env h hframe
  obtain ⟨time, byte, htyped, -, htime⟩ := terminalInputReadKey_byte env hkey.symm hlow hhigh
  refine ⟨hframe, hkey, time, ⟨byte, htyped⟩, fun hbefore => ?_⟩
  exact lastFrame_of_drawn env ⟨pass, h, hframe⟩ hbefore (by omega)

/-- Behind every signal there are two frames, the one with the target highlighted and
the question, and two keys read behind them. -/
theorem kill_answers {n : Nat} {pass : Pass} (h : passAt env n = some pass) {call : KillCall}
    (hcall : call ∈ pass.kills) :
    ∃ force m opening list question, OpenedBy env m n force call.pid call.starttime ∧
      passAt env m = some opening ∧ opening.key = openKey force ∧ Answers env m opening list ∧
      Highlights list.drawing call.pid call.starttime ∧ isYes pass.key ∧
      Answers env n pass question ∧ Asks question.drawing force call.pid call.starttime := by
  obtain ⟨force, hscreen, -, hyes, -, hpid, hstart, question, hquestion, hasks⟩ :=
    (passAt_outcome env h).sent hcall
  obtain ⟨m, hopened⟩ := exists_openedBy env hscreen
  obtain ⟨opening, hopening, henters⟩ := hopened.enters
  obtain ⟨list, hlist, hhighlights⟩ := henters.highlighted
  rw [← (passAt_some env hopening).2.1, hopened.pid, hopened.starttime] at hhighlights
  rw [← hpid, ← hstart] at hopened hhighlights
  have hkey : 27 < openKey force ∧ openKey force < 256 := by cases force <;> decide
  have hanswer : 27 < pass.key ∧ pass.key < 256 := by
    rcases hyes with hy | hy <;> rw [hy] <;> decide
  rw [← henters.key] at hkey
  exact ⟨force, m, opening, list, question, hopened, hopening, henters.key,
    answers_of_key env hopening hlist hkey.1 hkey.2, hhighlights, hyes,
    answers_of_key env h hquestion hanswer.1 hanswer.2, hasks⟩

theorem stopping_answers :
    ∃ pass, passAt (lastingMachine.env stopping) 2 = some pass ∧ ∃ force m opening list question,
      OpenedBy (lastingMachine.env stopping) m 2 force 7 100 ∧
      passAt (lastingMachine.env stopping) m = some opening ∧ opening.key = openKey force ∧
      Answers (lastingMachine.env stopping) m opening list ∧ Highlights list.drawing 7 100 ∧
      isYes pass.key ∧ Answers (lastingMachine.env stopping) 2 pass question ∧
      Asks question.drawing force 7 100 := by
  obtain ⟨pass, hpass, hcall⟩ := stopping_kills
  exact ⟨pass, hpass, @kill_answers _ _ _ hpass ⟨87, 7, sigterm, 100⟩ (by simp [hcall])⟩

/-! Two keys pressed at once, while the list is being sampled. -/

/-- The first process of the list exits just after the keys have been pressed. -/
def exiting : List Life := [oldLife 90, shellLife]

theorem exiting_apart : exiting.Pairwise Life.Apart := by
  simp [exiting, oldLife, shellLife, Life.Apart]

def hasty : Env :=
  (machine exiting exiting_apart).env
    (attended [ascii "7", ascii "8"] [(0, 112), (85, 107), (85, 121)])

def seen (n : Nat) : Option (Nat × Option (Int × UInt64)) :=
  (passAt env n).bind fun pass => pass.frame.map fun frame => (frame.time, highlighted frame.drawing)

theorem Drawn.seen {n : Nat} {frame : Frame} (h : Drawn env n frame) :
    seen env n = some (frame.time, highlighted frame.drawing) := by
  obtain ⟨pass, hpass, hframe⟩ := h
  unfold TypeAhead.seen
  rw [hpass, Option.bind_some, hframe, Option.map_some]

theorem hasty_later {n : Nat} {frame : Frame} (h : Drawn hasty n frame) (hn : 3 ≤ n) :
    126 ≤ frame.time := by
  have hnow : (runInteractive hasty 3).now = 126 := by decide +kernel
  exact le_trans (le_of_eq hnow.symm) (le_trans (now_mono hasty hn) (h.time_lt hasty).1)

theorem hasty_second : seen hasty 1 = some (80, some (7, 100)) := by decide +kernel

theorem hasty_unseen {n : Nat} {frame : Frame} (h : Drawn hasty n frame) (htime : frame.time ≤ 85) :
    ¬ Highlights frame.drawing 8 50 := by
  intro hhighlights
  have hseen := h.seen hasty
  rw [hhighlights] at hseen
  rcases n with _ | _ | _ | n
  · have hfirst : seen hasty 0 = some (38, none) := by decide +kernel
    have hsame := Option.some.inj (hfirst.symm.trans hseen)
    simp at hsame
  · have hsame := Option.some.inj (hasty_second.symm.trans hseen)
    simp at hsame
  · have hthird : seen hasty 2 = some (114, some (8, 50)) := by decide +kernel
    have hsame := congrArg Prod.fst (Option.some.inj (hthird.symm.trans hseen))
    omega
  · have hlate := hasty_later h (by omega)
    omega

/-- With process 7 highlighted on the screen `k` and `y` stop process 8, to which the
highlight has moved meanwhile. -/
theorem hasty_stops_another :
    seen hasty 1 = some (80, some (7, 100)) ∧
      (passAt hasty 3).map Pass.kills = some [⟨142, 8, sigterm, 50⟩] ∧
      ¬ ReallyConfirmed hasty 3 ⟨142, 8, sigterm, 50⟩ := by
  refine ⟨hasty_second, by decide +kernel, ?_⟩
  rintro ⟨force, m, hopened, ⟨time, frame, ⟨byte, hpressed⟩, hlast, hhighlights⟩, -⟩
  have hm : m = 2 := by
    have hscreen : aboutSelected (runInteractive hasty 2).state.screen = false := by decide +kernel
    by_contra hne
    have hlt := hopened.before
    have hsince := hopened.since 2 (by omega) (by omega)
    rw [hsince, aboutSelected_confirmScreen] at hscreen
    cases hscreen
  have htyped : hasty.typed (runInteractive hasty 2).consumed = some (85, 107) := by decide +kernel
  rw [hm] at hpressed
  have htime := congrArg Prod.fst (Option.some.inj (htyped.symm.trans hpressed))
  obtain ⟨n, hdrawn⟩ := hlast.drawn
  exact hasty_unseen hdrawn (le_trans hlast.before (le_of_eq htime.symm)) hhighlights

end RookieTop.TypeAhead
