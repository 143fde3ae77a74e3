import RookieTop.Lives

/-! The guarded `kill` against pids that are given to new processes at any moment. -/
namespace RookieTop.Signal

open CLib Trace Sys ProcessList Kernel Lives

def receiver (m : Machine) (call : KillCall) : Option Nat := m.tasks.holder call.time call.pid

/-- A delivered signal reaches the instance it was meant for. -/
def ReachesArgument (m : Machine) (base : Env) (pid : Int) (starttime : UInt64) (signal : Int)
    (n : Nat) : Prop :=
  ∀ call, (processSendSignal (m.env base) pid starttime signal).value n = (.ok, some call) →
    ∀ target, receiver m call = some target → m.tasks.stamp target = starttime

/-- What the guard makes sure of, where the stat file is opened at time `n` and read at `n + 1`. -/
structure Guarded (m : Machine) (base : Env) (pid : Int) (starttime : UInt64) (signal : Int)
    (n : Nat) : Prop where
  /-- One instance had the pid from the open to the read, and it is the one that is meant. Only
  if another one has taken the pid since does the signal go astray. -/
  checked : ∀ call, ((processSendSignal (m.env base) pid starttime signal).value n).2 = some call →
    ∃ inst, m.tasks.holder n pid = some inst ∧ m.tasks.holder (n + 1) pid = some inst ∧
      m.tasks.stamp inst = starttime ∧ call.pid = pid ∧ n + 1 < call.time ∧
      ∀ target, receiver m call = some target →
        (m.tasks.stamp target = starttime ↔ target = inst)
  /-- No instance that was meant had the pid from the open to the read. -/
  refused : (∀ inst, m.tasks.holder n pid = some inst → m.tasks.holder (n + 1) pid = some inst →
      m.tasks.stamp inst ≠ starttime) →
    ((processSendSignal (m.env base) pid starttime signal).value n).2 = none ∧
      ((processSendSignal (m.env base) pid starttime signal).value n).1 ∈
        [.gone, .reused, .error]
  /-- Whoever had it, the file could not be opened, read, closed or parsed. -/
  unread : (readStarttime (m.env base) pid).value n = none →
    ((processSendSignal (m.env base) pid starttime signal).value n).2 = none ∧
      ((processSendSignal (m.env base) pid starttime signal).value n).1 ∈
        [.gone, .reused, .error]

variable (m : Machine) (base : Env) (pid : Int) (starttime : UInt64) (signal : Int) (n : Nat)

theorem processSendSignal_none
    (h : ((processSendSignal base pid starttime signal).value n).2 = none) :
    ((processSendSignal base pid starttime signal).value n).1 ∈ [.gone, .reused, .error] := by
  unfold processSendSignal at h ⊢
  split_ifs at h ⊢ with hbad
  · simp
  · simp only [Calls.value_bind] at h ⊢
    cases hread : (readStarttime base pid).value n with
    | none => simp
    | some current =>
      simp only [hread] at h ⊢
      split_ifs at h ⊢ with hsame
      · simp
      · simp at h

/-- A call of `kill` is made after the start time was read from an instance that has it. -/
theorem processSendSignal_checked {call : KillCall}
    (h : ((processSendSignal (m.env base) pid starttime signal).value n).2 = some call) :
    call.pid = pid ∧ n + 1 < call.time ∧
      ∃ inst, m.tasks.holder n pid = some inst ∧ m.tasks.holder (n + 1) pid = some inst ∧
        m.tasks.stamp inst = starttime := by
  obtain ⟨rfl, hread⟩ := processSendSignal_some (m.env base) h
  refine ⟨rfl, ?_, m.readStarttime_some base hread⟩
  have hopen := readStarttime_opens (m.env base) hread
  simp only [readStarttime_after, hopen, if_true]
  omega

theorem processSendSignal_unread (h : (readStarttime base pid).value n = none) :
    ((processSendSignal base pid starttime signal).value n).2 = none := by
  unfold processSendSignal
  split_ifs
  · rfl
  · simp only [Calls.value_bind, h, Calls.value_pure]

theorem sendSignal_guarded : Guarded m base pid starttime signal n := by
  have hresult (hnone : ((processSendSignal (m.env base) pid starttime signal).value n).2 = none) :=
    And.intro hnone (processSendSignal_none (m.env base) pid starttime signal n hnone)
  refine ⟨fun call hcall => ?_, fun hother => hresult ?_, fun hread =>
    hresult (processSendSignal_unread (m.env base) pid starttime signal n hread)⟩
  · obtain ⟨hpid, htime, inst, hopened, hinst, hstamp⟩ :=
      processSendSignal_checked m base pid starttime signal n hcall
    refine ⟨inst, hopened, hinst, hstamp, hpid, htime, fun target htarget => ?_⟩
    refine ⟨fun h => ?_, fun h => h ▸ hstamp⟩
    rw [receiver, hpid] at htarget
    exact m.tasks.stamp_inj htarget hinst (h.trans hstamp.symm)
  · rw [Option.eq_none_iff_forall_ne_some]
    intro call hcall
    obtain ⟨-, -, inst, hopened, hinst, hstamp⟩ :=
      processSendSignal_checked m base pid starttime signal n hcall
    exact hother inst hopened hinst hstamp

def reusedPid : List Life :=
  [oldLife 3,
    { oldLife 9 with
      born := 3
      task := fun _ => plainTask (ascii "new") (by decide) 0 200
      starttime := 200
      task_starttime := fun _ => rfl }]

theorem reusedPid_apart : reusedPid.Pairwise Life.Apart := by
  simp [reusedPid, oldLife, Life.Apart]

def reuseMachine : Machine := machine reusedPid reusedPid_apart

/-- The guard reads start time 100, and the signal reaches the process that started
at 200. -/
theorem signal_astray :
    (processSendSignal (reuseMachine.env calm) 7 100 sigterm).value 0 =
        (.ok, some ⟨3, 7, sigterm, 100⟩) ∧
      receiver reuseMachine ⟨3, 7, sigterm, 100⟩ = some 1 ∧ reuseMachine.tasks.stamp 1 = 200 ∧
      ¬ ReachesArgument reuseMachine calm 7 100 sigterm 0 := by
  have hsent : (processSendSignal (reuseMachine.env calm) 7 100 sigterm).value 0 =
      (.ok, some ⟨3, 7, sigterm, 100⟩) := by decide +kernel
  have htarget : receiver reuseMachine ⟨3, 7, sigterm, 100⟩ = some 1 := by decide +kernel
  refine ⟨hsent, htarget, by decide +kernel, fun h => ?_⟩
  exact absurd (h _ hsent 1 htarget) (by decide +kernel)

end RookieTop.Signal
