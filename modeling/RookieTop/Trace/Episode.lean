import Mathlib.Logic.Function.Iterate

/-! Runs of a deterministic step: the induction rule for invariants, and episodes,
the stretches of a run in which a predicate holds without interruption. -/
namespace Trace

variable {State : Type} {step : State → State} {init : State}

theorem run_induction {Inv : State → Prop} (hinit : Inv init)
    (hstep : ∀ s, Inv s → Inv (step s)) (n : Nat) : Inv (step^[n] init) := by
  induction n with
  | zero => exact hinit
  | succ n ih =>
    rw [Function.iterate_succ_apply']
    exact hstep _ ih

/-- Where `P` holds but did not at the start, it has held ever since a last entry. -/
theorem exists_entry {P : Nat → Prop} {n : Nat} (hn : P n) (h0 : ¬ P 0) :
    ∃ m < n, ¬ P m ∧ ∀ j, m < j → j ≤ n → P j := by
  induction n with
  | zero => exact absurd hn h0
  | succ n ih =>
    by_cases hp : P n
    · obtain ⟨m, hm, hnot, hsince⟩ := ih hp
      refine ⟨m, by omega, hnot, fun j hj hjn => ?_⟩
      rcases Nat.lt_or_ge n j with h | h
      · have : j = n + 1 := by omega
        exact this ▸ hn
      · exact hsince j hj h
    · refine ⟨n, by omega, hp, fun j hj hjn => ?_⟩
      have : j = n + 1 := by omega
      exact this ▸ hn

/-- A value that no step inside an episode changes is the one at its start. -/
theorem constant_in_episode {α : Type} {f : Nat → α} {m n : Nat}
    (hstep : ∀ j, m ≤ j → j < n → f (j + 1) = f j) {j : Nat} (hm : m ≤ j) (hn : j ≤ n) :
    f j = f m := by
  induction j with
  | zero =>
    have : m = 0 := by omega
    rw [this]
  | succ j ih =>
    rcases Nat.eq_or_lt_of_le hm with h | h
    · rw [h]
    · rw [hstep j (by omega) (by omega), ih (by omega) (by omega)]

/-- The labels of the steps from `m` on, up to step `m + count`. -/
def labels {Label : Type} (label : Nat → Option Label) (m count : Nat) : List Label :=
  (List.range count).filterMap fun i => label (m + i)

theorem labels_succ {Label : Type} (label : Nat → Option Label) (m count : Nat) :
    labels label m (count + 1) = labels label m count ++ (label (m + count)).toList := by
  unfold labels
  rw [List.range_succ, List.filterMap_append]
  cases h : label (m + count) <;> simp [h]

theorem fold_labels {Label : Type} {label : Nat → Option Label} {f : Nat → State}
    {act : State → Label → State} {m count : Nat}
    (hstep : ∀ i < count, f (m + i + 1) = (label (m + i)).elim (f (m + i)) (act (f (m + i)))) :
    f (m + count) = (labels label m count).foldl act (f m) := by
  induction count with
  | zero => rfl
  | succ count ih =>
    rw [← Nat.add_assoc, hstep count (Nat.lt_succ_self count),
      ih fun i hi => hstep i (by omega), labels_succ, List.foldl_append]
    cases label (m + count) <;> rfl

/-- A rank that no step raises, and that every marked step lowers as long as it can. -/
theorem rank_le {Label : Type} {label : Nat → Option Label} {rank : Nat → Nat}
    {marked : Label → Bool} {m count : Nat}
    (hstep : ∀ i < count, rank (m + i + 1) ≤
      rank (m + i) - ((label (m + i)).toList.countP marked)) :
    rank (m + count) ≤ rank m - (labels label m count).countP marked := by
  induction count with
  | zero => exact Nat.le_refl _
  | succ count ih =>
    have hlast := hstep count (Nat.lt_succ_self count)
    have hbefore := ih fun i hi => hstep i (by omega)
    rw [labels_succ, List.countP_append, ← Nat.add_assoc]
    omega

end Trace
