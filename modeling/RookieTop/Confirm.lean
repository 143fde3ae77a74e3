import RookieTop.Lives
import RookieTop.Passes

/-! Signals over whole runs. A signal is sent only from a confirmation screen, and
only to the process instance for which that screen was opened. -/
namespace RookieTop.Confirm

open Trace Sys ProcessList App RunInteractive Passes Lives

variable (env : Env)

/-- The confirmation that pass `n` starts on was opened by pass `m`, for the instance
that it left selected, and has been on the screen ever since. -/
structure OpenedBy (m n : Nat) (force : Bool) (pid : Int) (starttime : UInt64) : Prop where
  before : m < n
  enters : ∃ opening, passAt env m = some opening ∧
    Enters (runInteractive env m).state force opening
  pid : (runInteractive env (m + 1)).state.selectedPid = pid
  starttime : (runInteractive env (m + 1)).state.selectedStarttime = starttime
  since : ∀ j, m < j → j ≤ n → (runInteractive env j).state.screen = confirmScreen force

theorem selection_of_confirm {j : Nat} {force : Bool}
    (hbefore : (runInteractive env j).state.screen = confirmScreen force)
    (hafter : (runInteractive env (j + 1)).state.screen = confirmScreen force) :
    (runInteractive env (j + 1)).state.selectedPid = (runInteractive env j).state.selectedPid ∧
      (runInteractive env (j + 1)).state.selectedStarttime =
        (runInteractive env j).state.selectedStarttime := by
  cases hpass : passAt env j with
  | none =>
    rw [(passAt_none env hpass).1]
    exact ⟨rfl, rfl⟩
  | some pass =>
    have hstate := (passAt_some env hpass).2.1
    rw [hstate] at hafter ⊢
    apply (passAt_outcome env hpass).stays
    · rw [hbefore, aboutSelected_confirmScreen]
    · rw [hafter, aboutSelected_confirmScreen]

theorem exists_openedBy {n : Nat} {force : Bool}
    (h : (runInteractive env n).state.screen = confirmScreen force) :
    ∃ m, OpenedBy env m n force (runInteractive env n).state.selectedPid
      (runInteractive env n).state.selectedStarttime := by
  have hstart : AppState.initial.screen ≠ confirmScreen force := by cases force <;> decide
  obtain ⟨m, hm, hnot, hsince⟩ :=
    exists_entry (P := fun j => (runInteractive env j).state.screen = confirmScreen force) h hstart
  have hkeeps := fun j hj hjn => selection_of_confirm env (hsince j hj (by omega))
    (hsince (j + 1) (by omega) hjn)
  refine ⟨m, hm, ?_, ?_, ?_, hsince⟩
  · cases hpass : passAt env m with
    | none =>
      have hsame := hsince (m + 1) (by omega) hm
      rw [(passAt_none env hpass).1] at hsame
      exact absurd hsame hnot
    | some opening =>
      have hafter := hsince (m + 1) (by omega) hm
      rw [(passAt_some env hpass).2.1] at hafter
      exact ⟨opening, rfl, (passAt_outcome env hpass).enters hnot hafter⟩
  · exact (constant_in_episode (f := fun j => (runInteractive env j).state.selectedPid)
      (fun j hj hjn => (hkeeps j (by omega) (by omega)).1) hm (le_refl n)).symm
  · exact (constant_in_episode (f := fun j => (runInteractive env j).state.selectedStarttime)
      (fun j hj hjn => (hkeeps j (by omega) (by omega)).2) hm (le_refl n)).symm

/-- What a call of `kill` in pass `n` rests on. -/
structure Authorized (n : Nat) (pass : Pass) (call : KillCall) : Prop where
  yes : isYes pass.key
  other : call.pid ≠ env.self
  confirmed : ∃ force, (runInteractive env n).state.screen = confirmScreen force ∧
    call.signal = confirmSignal force ∧
    ∃ m, OpenedBy env m n force call.pid call.starttime

/-- A pass sends at most one signal, and only an authorized one. -/
theorem kills_authorized {n : Nat} {pass : Pass} (h : passAt env n = some pass) :
    pass.kills.length ≤ 1 ∧ ∀ call ∈ pass.kills, Authorized env n pass call := by
  have houtcome := passAt_outcome env h
  refine ⟨houtcome.once, fun call hcall => ?_⟩
  obtain ⟨force, hscreen, hsignal, hyes, hother, hpid, hstart, -⟩ := houtcome.sent hcall
  refine ⟨hyes, hother, force, hscreen, hsignal, ?_⟩
  rw [hpid, hstart]
  exact exists_openedBy env hscreen

theorem stopping_kills :
    ∃ pass, passAt (lastingMachine.env stopping) 2 = some pass ∧
      pass.kills = [⟨87, 7, sigterm, 100⟩] := by
  have hkills : (passAt (lastingMachine.env stopping) 2).map Pass.kills =
      some [⟨87, 7, sigterm, 100⟩] := by decide +kernel
  exact Option.map_eq_some_iff.mp hkills

theorem stopping_authorized :
    ∃ pass, passAt (lastingMachine.env stopping) 2 = some pass ∧
      pass.kills = [⟨87, 7, sigterm, 100⟩] ∧
      Authorized (lastingMachine.env stopping) 2 pass ⟨87, 7, sigterm, 100⟩ := by
  obtain ⟨pass, hpass, hcall⟩ := stopping_kills
  exact ⟨pass, hpass, hcall, (kills_authorized _ hpass).2 _ (by simp [hcall])⟩

end RookieTop.Confirm
