import Mathlib.Order.Defs.LinearOrder

/-! Entries by their scores, best first. A stable sort leaves entries of one score in
the order they had, and there is only one such order. -/
namespace Tables

variable {Entry Score : Type} [LE Score] [DecidableLE Score]

def tied (score : Entry → Score) (s : Score) (entries : List Entry) : List Entry :=
  entries.filter fun e => decide (score e ≤ s ∧ s ≤ score e)

/-- `out` is the stable sort of the entries, best first. -/
structure BestFirst (score : Entry → Score) (entries out : List Entry) : Prop where
  ordered : out.Pairwise fun a b => score b ≤ score a
  stable : ∀ s, tied score s out = tied score s entries

def bestFirst (score : Entry → Score) (entries : List Entry) : List Entry :=
  entries.mergeSort fun a b => decide (score b ≤ score a)

theorem bestFirst_perm (score : Entry → Score) (entries : List Entry) :
    (bestFirst score entries).Perm entries :=
  List.mergeSort_perm entries _

variable {score : Entry → Score}

theorem mem_tied {s : Score} {entries : List Entry} {e : Entry} :
    e ∈ tied score s entries ↔ e ∈ entries ∧ score e ≤ s ∧ s ≤ score e := by
  simp [tied]

variable [Std.IsLinearOrder Score]

theorem mem_tied_self {entries : List Entry} {e : Entry} :
    e ∈ tied score (score e) entries ↔ e ∈ entries := by
  rw [mem_tied]
  exact and_iff_left ⟨Std.le_refl _, Std.le_refl _⟩

theorem tied_cons_self (e : Entry) (entries : List Entry) :
    tied score (score e) (e :: entries) = e :: tied score (score e) entries := by
  apply List.filter_cons_of_pos
  simp [Std.le_refl]

omit [DecidableLE Score] in
theorem le_head {first e : Entry} {entries : List Entry}
    (h : (first :: entries).Pairwise fun a b => score b ≤ score a) (he : e ∈ first :: entries) :
    score e ≤ score first := by
  rcases List.mem_cons.mp he with rfl | he
  · exact Std.le_refl _
  · exact List.rel_of_pairwise_cons h he

theorem mem_iff_of_tied_eq {out out' : List Entry}
    (h : ∀ s, tied score s out = tied score s out') (e : Entry) : e ∈ out ↔ e ∈ out' := by
  have hself : e ∈ tied score (score e) out ↔ e ∈ tied score (score e) out' := by rw [h]
  rwa [mem_tied_self, mem_tied_self] at hself

theorem eq_of_tied_eq {out out' : List Entry} (h : out.Pairwise fun a b => score b ≤ score a)
    (h' : out'.Pairwise fun a b => score b ≤ score a)
    (htied : ∀ s, tied score s out = tied score s out') : out = out' := by
  induction out generalizing out' with
  | nil =>
    cases out' with
    | nil => rfl
    | cons b out' => exact absurd ((mem_iff_of_tied_eq htied b).mpr (by simp)) (by simp)
  | cons a out ih =>
    have hmem := mem_iff_of_tied_eq htied
    cases out' with
    | nil => exact absurd ((hmem a).mp (by simp)) (by simp)
    | cons b out' =>
      have hab : score a = score b := Std.le_antisymm
        (le_head h' ((hmem a).mp (by simp))) (le_head h ((hmem b).mpr (by simp)))
      have hheads := htied (score a)
      rw [tied_cons_self, hab, tied_cons_self] at hheads
      obtain ⟨rfl, -⟩ := List.cons.inj hheads
      have htails : ∀ s, tied score s out = tied score s out' := by
        intro s
        have hs := htied s
        unfold tied at hs ⊢
        rw [List.filter_cons, List.filter_cons] at hs
        split at hs
        · exact (List.cons.inj hs).2
        · exact hs
      rw [ih (List.pairwise_cons.mp h).2 (List.pairwise_cons.mp h').2 htails]

theorem BestFirst.unique {entries out out' : List Entry} (h : BestFirst score entries out)
    (h' : BestFirst score entries out') : out = out' :=
  eq_of_tied_eq h.ordered h'.ordered fun s => (h.stable s).trans (h'.stable s).symm

theorem bestFirst_spec (entries : List Entry) : BestFirst score entries (bestFirst score entries) := by
  have htrans : ∀ a b c : Entry, decide (score b ≤ score a) = true →
      decide (score c ≤ score b) = true → decide (score c ≤ score a) = true := by
    intro a b c hab hbc
    rw [decide_eq_true_eq] at hab hbc ⊢
    exact Std.le_trans hbc hab
  have htotal : ∀ a b : Entry, (decide (score b ≤ score a) || decide (score a ≤ score b)) = true := by
    intro a b
    simp [Std.le_total]
  constructor
  · exact (List.pairwise_mergeSort htrans htotal entries).imp of_decide_eq_true
  · intro s
    -- Entries with one score are sorted as they stand, and a merge sort keeps them so.
    have hsorted : (tied score s entries).Pairwise fun a b => decide (score b ≤ score a) = true := by
      apply List.pairwise_of_forall_mem_list
      intro a ha b hb
      exact decide_eq_true (Std.le_trans (mem_tied.mp hb).2.1 (mem_tied.mp ha).2.2)
    have hkept := List.sublist_mergeSort htrans htotal hsorted List.filter_sublist
    have hself : tied score s (tied score s entries) = tied score s entries := by
      unfold tied
      rw [List.filter_filter]
      simp
    have hsub := hkept.filter fun e => decide (score e ≤ s ∧ s ≤ score e)
    have hlength := ((bestFirst_perm score entries).filter
      fun e => decide (score e ≤ s ∧ s ≤ score e)).length_eq
    change (tied score s (tied score s entries)).Sublist _ at hsub
    rw [hself] at hsub
    exact (hsub.eq_of_length hlength.symm).symm

theorem BestFirst.breaks_ties {entries out : List Entry} (h : BestFirst score entries out)
    {R : Entry → Entry → Prop} (hgiven : entries.Pairwise R) :
    out.Pairwise fun a b => score b ≤ score a ∧ (score a ≤ score b → R a b) := by
  rw [List.pairwise_iff_forall_sublist]
  intro a b hab
  have hle := List.pairwise_iff_forall_sublist.mp h.ordered hab
  refine ⟨hle, fun hge => ?_⟩
  have hties := hab.filter fun e => decide (score e ≤ score a ∧ score a ≤ score e)
  have hpair : [a, b].filter (fun e => decide (score e ≤ score a ∧ score a ≤ score e)) = [a, b] := by
    simp [Std.le_refl, hle, hge]
  rw [hpair] at hties
  have hstable : [a, b].Sublist (tied score (score a) entries) := h.stable (score a) ▸ hties
  exact List.pairwise_iff_forall_sublist.mp hgiven (hstable.trans List.filter_sublist)

end Tables
