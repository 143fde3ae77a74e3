import RookieTop.Navigation
import RookieTop.TypeAhead

/-! The bytes of the terminal over a whole run. Whatever the timing, the passes cut them into
consecutive segments, one for each key, and a segment ends early for want of its next byte only. -/
namespace RookieTop.Input

open CLib Trace Sys ProcessList CollectOverview Explorer TerminalInput App RunInteractive Passes
  TypeAhead

variable (env : Env)

/-- These bytes are the ones behind `consumed` others. The call that is begun at time `n` asks for
one after two calls, and each of them had arrived when it was read. -/
def Behind (consumed n : Nat) (segment : Bytes) : Prop :=
  ∀ i (hi : i < segment.length), ∃ time ≤ n + 2 * i + 1,
    env.typed (consumed + i) = some (time, segment[i])

def Unfinished (segment : Bytes) : Prop := segment = [] ∨ segment = [27] ∨ segment = [27, 91]

/-- Why the byte behind `consumed` others is not to be had of a `poll` at time `n` and a `read`
behind it: it has not arrived, or one of the two fails or is interrupted. -/
def Withheld (consumed n : Nat) : Prop :=
  arrived env consumed n = false ∨ env.pollFault n ≠ none ∨ env.readFault (n + 1) ≠ none

/-- What one call, begun at time `n`, makes of the bytes it takes: what the decoder would of them
alone. -/
structure Taken (consumed n : Nat) (key : Int) (consumed' : Nat) (segment : Bytes) : Prop where
  behind : Behind env consumed n segment
  count : consumed' = consumed + segment.length
  short : segment.length ≤ 3
  none : segment = [] → key = if env.pollFault n = some .failed then -1 else inputNone
  decoded : segment ≠ [] → decodeKey segment = (key, segment.length)
  stopped : Unfinished segment →
    Withheld env (consumed + segment.length) (n + 2 * segment.length)

variable {env} {consumed n : Nat}

theorem waitInput_eq (consumed n : Nat) : (waitInput env consumed).value n =
    match env.pollFault n with
    | some .interrupted => 0
    | some .failed => -1
    | none => if arrived env consumed n then 1 else 0 := rfl

theorem withheld_wait (h : (waitInput env consumed).value n ≤ 0) : Withheld env consumed n := by
  rw [waitInput_eq] at h
  cases hpoll : env.pollFault n with
  | some fault => exact Or.inr (Or.inl (by rw [hpoll]; exact Option.some_ne_none fault))
  | none =>
    rw [hpoll] at h
    dsimp only at h
    split_ifs at h with harrived
    · exact absurd h (by decide)
    · exact Or.inl (Bool.eq_false_iff.mpr harrived)

theorem waitInput_idle (h : (waitInput env consumed).value n ≤ 0) :
    (if (waitInput env consumed).value n = 0 then inputNone else -1) =
      if env.pollFault n = some .failed then -1 else inputNone := by
  rw [waitInput_eq] at h ⊢
  cases hpoll : env.pollFault n with
  | none =>
    rw [hpoll] at h
    dsimp only at h ⊢
    split_ifs at h ⊢ <;> simp_all
  | some fault => cases fault <;> rfl

theorem waitInput_ready (h : ¬ (waitInput env consumed).value n ≤ 0) : env.pollFault n = none := by
  rw [waitInput_eq] at h
  cases hpoll : env.pollFault n with
  | none => rfl
  | some fault => cases fault <;> simp [hpoll] at h

theorem arrived_succ (h : arrived env consumed n = true) : arrived env consumed (n + 1) = true := by
  unfold arrived at h ⊢
  cases htyped : env.typed consumed with
  | none => simp [htyped] at h
  | some typed =>
    simp only [htyped, decide_eq_true_eq] at h ⊢
    exact Nat.le_succ_of_le h

theorem withheld_read (h : (readByte env consumed).value (n + 1) = none) :
    Withheld env consumed n := by
  by_cases harrived : arrived env consumed n = true
  · refine Or.inr (Or.inr fun hread => ?_)
    unfold readByte at h
    rw [Calls.value_call, hread] at h
    have hlater := arrived_succ harrived
    dsimp only at h
    rw [hlater, if_pos rfl, Option.map_eq_none_iff] at h
    simp [arrived, h] at harrived
  · exact Or.inl (Bool.eq_false_iff.mpr harrived)

theorem Behind.nil : Behind env consumed n [] := fun _ hi => absurd hi (Nat.not_lt_zero _)

theorem Behind.snoc {segment : Bytes} {byte : UInt8} (h : Behind env consumed n segment)
    (hread : (readByte env (consumed + segment.length)).value (n + 2 * segment.length + 1) =
      some byte) : Behind env consumed n (segment ++ [byte]) := by
  obtain ⟨time, htyped, htime⟩ := readByte_some env hread
  intro i hi
  rw [List.length_append, List.length_singleton] at hi
  rcases Nat.lt_or_eq_of_le (Nat.le_of_lt_succ hi) with hlt | rfl
  · obtain ⟨time, htime, htyped⟩ := h i hlt
    exact ⟨time, htime, by rw [List.getElem_append_left hlt]; exact htyped⟩
  · exact ⟨time, htime, by simpa using htyped⟩

theorem taken_segment {key : Int} {segment : Bytes} (hbehind : Behind env consumed n segment)
    (hpos : segment ≠ []) (h : decodeKey segment = (key, segment.length))
    (hstopped : Unfinished segment →
      Withheld env (consumed + segment.length) (n + 2 * segment.length)) :
    Taken env consumed n key (consumed + segment.length) segment := by
  have hthree := (decodeKey_taken segment).1
  rw [h] at hthree
  exact ⟨hbehind, rfl, hthree, fun hnil => absurd hnil hpos, fun _ => h, hstopped⟩

theorem finished_single {byte : UInt8} (h : byte ≠ 27) : ¬ Unfinished [byte] := by
  simp [Unfinished, h]

theorem finished_pair {byte : UInt8} (h : byte ≠ 91) : ¬ Unfinished [27, byte] := by
  simp [Unfinished, h]

theorem finished_triple (a b c : UInt8) : ¬ Unfinished [a, b, c] := by
  simp [Unfinished]

theorem terminalInputReadKey_taken (consumed n : Nat) :
    ∃ segment, Taken env consumed n ((terminalInputReadKey env consumed).value n).1
      ((terminalInputReadKey env consumed).value n).2 segment := by
  have hempty {key : Int} (hkey : key = if env.pollFault n = some .failed then -1 else inputNone)
      (hheld : Withheld env consumed n) : Taken env consumed n key consumed [] :=
    ⟨.nil, rfl, by decide, fun _ => hkey, fun h => absurd rfl h, fun _ => hheld⟩
  unfold terminalInputReadKey
  simp only [Calls.value_bind]
  by_cases hready : (waitInput env consumed).value n ≤ 0
  · rw [if_pos hready]
    exact ⟨[], hempty (waitInput_idle hready) (withheld_wait hready)⟩
  rw [if_neg hready]
  simp only [Calls.value_bind]
  cases hfirst : (readByte env consumed).value ((waitInput env consumed).after n) with
  | none =>
    have hkey : inputNone = if env.pollFault n = some .failed then -1 else inputNone := by
      rw [waitInput_ready hready, if_neg (Option.some_ne_none _).symm]
    exact ⟨[], hempty hkey (withheld_read hfirst)⟩
  | some first =>
    have hone : Behind env consumed n [first] := @Behind.snoc env consumed n [] first .nil hfirst
    simp only [Calls.value_ite, Calls.value_bind, Calls.value_pure]
    by_cases henter : first = 13 ∨ first = 10
    · have hplain : first ≠ 27 := by rintro rfl; simp at henter
      rw [if_pos henter]
      exact ⟨_, taken_segment hone (by simp) (by simp [decodeKey, henter])
        fun h => absurd h (finished_single hplain)⟩
    rw [if_neg henter]
    by_cases hescape : first = 27
    · subst hescape
      rw [if_neg (by simp)]
      split_ifs with hwait
      · exact ⟨_, taken_segment hone (by simp) (by simp [decodeKey]) fun _ => withheld_wait hwait⟩
      cases hsecond : (readByte env (consumed + 1)).value _ with
      | none =>
        exact ⟨_, taken_segment hone (by simp) (by simp [decodeKey]) fun _ => withheld_read hsecond⟩
      | some second =>
        have htwo : Behind env consumed n [27, second] := hone.snoc hsecond
        simp only [Calls.value_ite, Calls.value_bind, Calls.value_pure]
        by_cases hbracket : second = 91
        · subst hbracket
          rw [if_neg (by simp)]
          split_ifs with hwait
          · exact ⟨_, taken_segment htwo (by simp) (by simp [decodeKey])
              fun _ => withheld_wait hwait⟩
          cases hthird : (readByte env (consumed + 2)).value _ with
          | none =>
            exact ⟨_, taken_segment htwo (by simp) (by simp [decodeKey])
              fun _ => withheld_read hthird⟩
          | some third =>
            have hthree : Behind env consumed n [27, 91, third] := htwo.snoc hthird
            have hdone {key : Int} (h : decodeKey [27, 91, third] = (key, 3)) :
                Taken env consumed n key (consumed + 3) [27, 91, third] :=
              taken_segment hthree (by simp) h fun hopen => absurd hopen (finished_triple _ _ _)
            simp only [Calls.value_ite, Calls.value_pure]
            split_ifs with hup hdown
            · exact ⟨_, hdone (by simp [decodeKey, hup])⟩
            · exact ⟨_, hdone (by simp [decodeKey, hdown])⟩
            · exact ⟨_, hdone (by simp [decodeKey, hup, hdown])⟩
        · rw [if_pos hbracket]
          exact ⟨_, taken_segment htwo (by simp) (by simp [decodeKey, hbracket])
            fun h => absurd h (finished_pair hbracket)⟩
    · rw [if_pos hescape]
      exact ⟨_, taken_segment hone (by simp) (by simp [decodeKey, henter, hescape])
        fun h => absurd h (finished_single hescape)⟩

inductive Asked (env : Env) (consumed : Nat) (pass : Pass) : Prop
  | silent (drawn : pass.frame = none) (key : pass.key = inputNone)
      (same : pass.consumed = consumed)
  | asked (frame : Frame) (drawn : pass.frame = some frame)
      (answer : (pass.key, pass.consumed) =
        (terminalInputReadKey env consumed).value (frame.time + 1))

theorem asked_prompt {term : TerminalSize} {drawing : Drawing}
    {post : Frame × Int × Nat → Calls Pass}
    (hpost : ∀ answer t, ((post answer).value t).frame = some answer.1 ∧
      ((post answer).value t).key = answer.2.1 ∧ ((post answer).value t).consumed = answer.2.2)
    (n : Nat) :
    Asked env consumed ((prompt env term drawing consumed >>= post).value n) := by
  rw [Calls.value_bind]
  obtain ⟨hframe, hkey, hconsumed⟩ := hpost ((prompt env term drawing consumed).value n)
    ((prompt env term drawing consumed).after n)
  exact .asked _ hframe (by rw [hkey, hconsumed]; rfl)

theorem detailPass_asked (draw : ProcessDetail → Drawing)
    (act : AppState → Int → Calls (AppState × List KillCall)) (term : TerminalSize)
    (state : AppState) (n : Nat) :
    Asked env consumed ((detailPass env draw act term state consumed).value n) := by
  unfold detailPass
  rw [Calls.value_bind]
  cases (refreshSelectedDetail env state).value n with
  | none => exact .silent rfl rfl rfl
  | some refreshed => exact asked_prompt (fun _ _ => ⟨rfl, rfl, rfl⟩) _

theorem loopPass_asked (state : AppState) (n : Nat) :
    Asked env consumed ((loopPass env state consumed).value n) := by
  unfold loopPass screenPass
  rw [Calls.value_bind, Calls.value_call]
  cases state.screen with
  | overview =>
    dsimp only
    unfold overviewPass
    rw [Calls.value_bind]
    cases (refreshOverview env state).value _ with
    | none => exact .silent rfl rfl rfl
    | some refreshed => exact asked_prompt (fun _ _ => ⟨rfl, rfl, rfl⟩) _
  | processes =>
    dsimp only
    unfold processesPass
    rw [Calls.value_bind]
    exact asked_prompt (fun _ _ => ⟨rfl, rfl, rfl⟩) _
  | processSearch => exact asked_prompt (fun _ _ => ⟨rfl, rfl, rfl⟩) _
  | learnMenu => exact asked_prompt (fun _ _ => ⟨rfl, rfl, rfl⟩) _
  | learnTopic => exact asked_prompt (fun _ _ => ⟨rfl, rfl, rfl⟩) _
  | detail => exact detailPass_asked _ _ _ state _
  | processLearn => exact detailPass_asked _ _ _ state _
  | confirmTerm => exact detailPass_asked _ _ _ state _
  | confirmKill => exact detailPass_asked _ _ _ state _

/-- The bytes of a pass: none where it does not read, and else those of its call. -/
inductive Cuts (env : Env) (consumed : Nat) (pass : Pass) (segment : Bytes) : Prop
  | silent (drawn : pass.frame = none) (key : pass.key = inputNone)
      (same : pass.consumed = consumed) (empty : segment = [])
  | read (frame : Frame) (drawn : pass.frame = some frame)
      (taken : Taken env consumed (frame.time + 1) pass.key pass.consumed segment)

theorem Asked.cuts {pass : Pass} (h : Asked env consumed pass) :
    ∃ segment, Cuts env consumed pass segment := by
  cases h with
  | silent drawn key same => exact ⟨[], .silent drawn key same rfl⟩
  | asked frame drawn answer =>
    obtain ⟨segment, htaken⟩ := @terminalInputReadKey_taken env consumed (frame.time + 1)
    rw [← answer] at htaken
    exact ⟨segment, .read frame drawn htaken⟩

variable (env)

def typedBytes (count : Nat) : Bytes :=
  (List.range count).filterMap fun i => (env.typed i).map Prod.snd

theorem typedBytes_append {consumed n : Nat} {segment : Bytes}
    (h : Behind env consumed n segment) :
    typedBytes env (consumed + segment.length) = typedBytes env consumed ++ segment := by
  have hrest : (List.range segment.length).filterMap
      (fun i => (env.typed (consumed + i)).map Prod.snd) = segment := by
    induction segment using List.reverseRecOn with
    | nil => rfl
    | append_singleton segment byte ih =>
      have hprefix : Behind env consumed n segment := fun i hi => by
        obtain ⟨time, htime, htyped⟩ := h i (by rw [List.length_append]; omega)
        exact ⟨time, htime, by rw [htyped, List.getElem_append_left hi]⟩
      obtain ⟨time, -, htyped⟩ := h segment.length (by simp)
      rw [List.length_append, List.length_singleton, List.range_succ, List.filterMap_append,
        ih hprefix]
      simp [htyped]
  unfold typedBytes
  rw [List.range_add, List.filterMap_append, List.filterMap_map]
  exact congrArg _ hrest

theorem typedBytes_cuts {consumed : Nat} {pass : Pass} {segment : Bytes}
    (h : Cuts env consumed pass segment) :
    typedBytes env pass.consumed = typedBytes env consumed ++ segment := by
  cases h with
  | silent _ _ same empty => rw [same, empty, List.append_nil]
  | read frame _ taken => rw [taken.count, typedBytes_append env taken.behind]

/-- The bytes that the passes of a run have consumed, cut at the ends of their keys. -/
structure Cut (n : Nat) (segments : List Bytes) : Prop where
  length : segments.length = n
  all : segments.flatten = typedBytes env (runInteractive env n).consumed
  key : ∀ i (hi : i < segments.length),
    (passAt env i = none → segments[i] = []) ∧
    ∀ pass, passAt env i = some pass →
      Cuts env (runInteractive env i).consumed pass segments[i]

/-- However the bytes arrive, and whichever reads fail, none is lost, none is read twice and none
out of turn. Each key is what the decoder makes of its own bytes alone, and these are all that it
can use of those that it could get. -/
theorem input_cut (n : Nat) : ∃ segments, Cut env n segments := by
  induction n with
  | zero => exact ⟨[], rfl, rfl, fun i hi => absurd hi (Nat.not_lt_zero i)⟩
  | succ n ih =>
    obtain ⟨segments, hlength, hall, hkey⟩ := ih
    -- one more segment, which is the last one's
    have hnext (segment : Bytes) (hnone : passAt env n = none → segment = [])
        (hsome : ∀ pass, passAt env n = some pass →
          Cuts env (runInteractive env n).consumed pass segment)
        (hconsumed : typedBytes env (runInteractive env (n + 1)).consumed =
          typedBytes env (runInteractive env n).consumed ++ segment) :
        Cut env (n + 1) (segments ++ [segment]) := by
      refine ⟨by simp [hlength], by simp [hall, hconsumed], fun i hi => ?_⟩
      rw [List.length_append, List.length_singleton] at hi
      rcases Nat.lt_or_eq_of_le (Nat.le_of_lt_succ hi) with hlt | rfl
      · rw [List.getElem_append_left hlt]
        exact hkey i hlt
      · simp only [List.getElem_concat_length, hlength]
        exact ⟨hnone, hsome⟩
    cases hpass : passAt env n with
    | none =>
      have hconsumed : (runInteractive env (n + 1)).consumed =
          (runInteractive env n).consumed := by
        rw [runInteractive_succ, step, show passOf env (runInteractive env n) = none from hpass]
      refine ⟨_, hnext [] (fun _ => rfl) (fun _ h => by rw [hpass] at h; cases h) ?_⟩
      rw [hconsumed, List.append_nil]
    | some pass =>
      obtain ⟨hvalue, -, hconsumed, -⟩ := passAt_some env hpass
      have hasked := @loopPass_asked env (runInteractive env n).consumed
        (runInteractive env n).state (runInteractive env n).now
      rw [← hvalue] at hasked
      obtain ⟨segment, hcuts⟩ := hasked.cuts
      refine ⟨_, hnext segment (fun h => by rw [hpass] at h; cases h) ?_ ?_⟩
      · intro other hother
        rw [hpass] at hother
        cases hother
        exact hcuts
      · rw [hconsumed, typedBytes_cuts env hcuts]

end RookieTop.Input
