import RookieTop.Tables.StableSort
import Mathlib.Data.List.Perm.Subperm
import Mathlib.Order.Basic

/-! The best entries seen so far, in an array of fixed capacity kept in order. -/
namespace Tables

variable {Entry Score : Type} [LE Score] [DecidableLE Score]

/-- Inserts behind every entry that scores at least as much, and lets the last
entry of a full array go. -/
def insertTop (score : Entry → Score) (cap : Nat) (out : List Entry) (candidate : Entry) :
    List Entry :=
  let pos := (out.takeWhile fun e => decide (score candidate ≤ score e)).length
  if cap ≤ pos then out
  else
    let newCount := if out.length < cap then out.length + 1 else out.length
    (out.take pos ++ candidate :: out.drop pos).take newCount

theorem insertTop_subperm (score : Entry → Score) (cap : Nat) (out : List Entry)
    (candidate : Entry) : List.Subperm (insertTop score cap out candidate) (candidate :: out) := by
  unfold insertTop
  dsimp only
  split
  · exact (List.sublist_cons_self candidate out).subperm
  · apply (List.take_sublist _ _).subperm.trans
    apply List.Perm.subperm
    apply List.perm_middle.trans
    rw [List.take_append_drop]

theorem foldl_insertTop_subperm (score : Entry → Score) (cap : Nat) (entries out : List Entry) :
    List.Subperm (entries.foldl (insertTop score cap) out) (entries ++ out) := by
  induction entries generalizing out with
  | nil => exact List.Subperm.refl out
  | cons entry entries ih =>
    rw [List.foldl_cons, List.cons_append]
    apply (ih _).trans
    apply ((List.subperm_append_left entries).mpr (insertTop_subperm score cap out entry)).trans
    exact List.perm_middle.subperm

theorem top_subperm (score : Entry → Score) (cap : Nat) (entries : List Entry) :
    List.Subperm (entries.foldl (insertTop score cap) []) entries := by
  have hall := foldl_insertTop_subperm score cap entries []
  rwa [List.append_nil] at hall

def insertBehind (score : Entry → Score) : List Entry → Entry → List Entry
  | [], candidate => [candidate]
  | e :: out, candidate =>
    if score candidate ≤ score e then e :: insertBehind score out candidate
    else candidate :: e :: out

theorem insertTop_nil (score : Entry → Score) (cap : Nat) (candidate : Entry) :
    insertTop score cap [] candidate = [candidate].take cap := by
  cases cap with
  | zero => rfl
  | succ cap => simp [insertTop]

theorem insertTop_cons_of_le {score : Entry → Score} {e candidate : Entry}
    (h : score candidate ≤ score e) (cap : Nat) (out : List Entry) :
    insertTop score (cap + 1) (e :: out) candidate = e :: insertTop score cap out candidate := by
  have hpos : (e :: out).takeWhile (fun e => decide (score candidate ≤ score e)) =
      e :: out.takeWhile fun e => decide (score candidate ≤ score e) :=
    List.takeWhile_cons_of_pos (by simpa using h)
  simp only [insertTop, hpos, List.length_cons, Nat.add_le_add_iff_right,
    Nat.add_lt_add_iff_right, List.take_succ_cons, List.drop_succ_cons, List.cons_append]
  split
  · rfl
  · split <;> rfl

theorem insertTop_eq_take (score : Entry → Score) {cap : Nat} {out : List Entry}
    (hcap : out.length ≤ cap) (candidate : Entry) :
    insertTop score cap out candidate = (insertBehind score out candidate).take cap := by
  induction out generalizing cap with
  | nil => exact insertTop_nil score cap candidate
  | cons e out ih =>
    obtain ⟨cap, rfl⟩ : ∃ k, cap = k + 1 := ⟨cap - 1, by rw [List.length_cons] at hcap; omega⟩
    rw [List.length_cons, Nat.add_le_add_iff_right] at hcap
    unfold insertBehind
    split
    · rename_i hle
      rw [insertTop_cons_of_le hle, ih hcap, List.take_succ_cons]
    · rename_i hlt
      have hpos : (e :: out).takeWhile (fun e => decide (score candidate ≤ score e)) = [] :=
        List.takeWhile_cons_of_neg (by simpa using hlt)
      simp only [insertTop, hpos, List.length_nil, List.take_zero, List.drop_zero,
        List.nil_append, List.length_cons]
      rw [if_neg (by omega)]
      split
      · rw [List.take_of_length_le (by simp), List.take_of_length_le (by simp; omega)]
      · rw [show cap = out.length by omega]

theorem take_insertBehind (score : Entry → Score) (cap : Nat) (out : List Entry)
    (candidate : Entry) :
    (insertBehind score (out.take cap) candidate).take cap =
      (insertBehind score out candidate).take cap := by
  induction out generalizing cap with
  | nil => rw [List.take_nil]
  | cons e out ih =>
    cases cap with
    | zero => rfl
    | succ cap =>
      rw [List.take_succ_cons]
      unfold insertBehind
      split
      · rw [List.take_succ_cons, List.take_succ_cons, ih]
      · cases cap <;> simp [List.take_take]

theorem foldl_insertTop_eq_take (score : Entry → Score) (cap : Nat) (entries out : List Entry) :
    entries.foldl (insertTop score cap) (out.take cap) =
      (entries.foldl (insertBehind score) out).take cap := by
  induction entries generalizing out with
  | nil => rfl
  | cons entry entries ih =>
    rw [List.foldl_cons, List.foldl_cons, insertTop_eq_take score (List.length_take_le cap out),
      take_insertBehind, ih]

variable {score : Entry → Score}

theorem mem_insertBehind {out : List Entry} {candidate e : Entry} :
    e ∈ insertBehind score out candidate ↔ e = candidate ∨ e ∈ out := by
  induction out with
  | nil => simp [insertBehind]
  | cons first out ih =>
    unfold insertBehind
    split
    · rw [List.mem_cons, ih, List.mem_cons]
      tauto
    · rw [List.mem_cons]

variable [Std.IsLinearOrder Score]

theorem insertBehind_ordered {out : List Entry} (h : out.Pairwise fun a b => score b ≤ score a)
    (candidate : Entry) :
    (insertBehind score out candidate).Pairwise fun a b => score b ≤ score a := by
  induction out with
  | nil => exact List.pairwise_singleton _ _
  | cons first out ih =>
    have hrest := List.pairwise_cons.mp h
    unfold insertBehind
    split
    · rename_i hle
      refine List.pairwise_cons.mpr ⟨fun e he => ?_, ih hrest.2⟩
      rcases mem_insertBehind.mp he with rfl | he
      · exact hle
      · exact hrest.1 e he
    · rename_i hlt
      refine List.pairwise_cons.mpr ⟨fun e he => ?_, h⟩
      exact Std.le_trans (le_head h he) (Std.le_total.resolve_left hlt)

theorem tied_insertBehind {out : List Entry} (h : out.Pairwise fun a b => score b ≤ score a)
    (candidate : Entry) (s : Score) :
    tied score s (insertBehind score out candidate) = tied score s (out ++ [candidate]) := by
  induction out with
  | nil => rfl
  | cons first out ih =>
    have hrest := ih (List.pairwise_cons.mp h).2
    unfold insertBehind
    split
    · unfold tied at hrest ⊢
      rw [List.cons_append, List.filter_cons, List.filter_cons, hrest]
    · rename_i hlt
      by_cases hs : score candidate ≤ s ∧ s ≤ score candidate
      · -- What the candidate is put before scores less than it.
        have hnone : tied score s (first :: out) = [] := by
          rw [List.eq_nil_iff_forall_not_mem]
          intro e he
          rw [mem_tied] at he
          exact hlt (Std.le_trans hs.1 (Std.le_trans he.2.2 (le_head h he.1)))
        unfold tied at hnone ⊢
        rw [List.filter_append, hnone, List.filter_cons, hnone]
        simp [hs]
      · unfold tied
        rw [List.filter_append, List.filter_cons_of_neg (by simpa using hs),
          List.filter_cons_of_neg (l := []) (by simpa using hs), List.filter_nil, List.append_nil]

theorem foldl_insertBehind_bestFirst (entries : List Entry) {given out : List Entry}
    (h : BestFirst score given out) :
    BestFirst score (given ++ entries) (entries.foldl (insertBehind score) out) := by
  induction entries generalizing given out with
  | nil => rwa [List.append_nil]
  | cons entry entries ih =>
    have hnext : BestFirst score (given ++ [entry]) (insertBehind score out entry) := by
      refine ⟨insertBehind_ordered h.ordered entry, fun s => ?_⟩
      have hstable := h.stable s
      rw [tied_insertBehind h.ordered]
      unfold tied at hstable ⊢
      rw [List.filter_append, List.filter_append, hstable]
    rw [List.foldl_cons, List.append_cons]
    exact ih hnext

/-- The array ends up with the head of the stable sort of all that it was offered. -/
theorem foldl_insertTop (cap : Nat) (entries : List Entry) :
    entries.foldl (insertTop score cap) [] = (bestFirst score entries).take cap := by
  have hall := foldl_insertBehind_bestFirst entries (⟨List.Pairwise.nil, fun _ => rfl⟩ :
    BestFirst score [] [])
  have hfold := foldl_insertTop_eq_take score cap entries []
  rw [List.take_nil] at hfold
  rw [hfold, hall.unique (bestFirst_spec entries)]

end Tables
