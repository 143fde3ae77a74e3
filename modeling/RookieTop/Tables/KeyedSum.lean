import Mathlib.Algebra.BigOperators.Group.Finset.Piecewise
import Mathlib.Algebra.Order.BigOperators.Group.Finset
import Mathlib.Algebra.Order.Ring.Nat

/-! Tables of entries with distinct keys, and the sum of one of their columns.
Summing two tables before comparing them forgets which key an amount belongs to;
`sum_eq_add_increases` says when nothing is lost by that. -/
namespace Tables

open scoped BigOperators

variable {Entry Key : Type} [DecidableEq Key]

def valueAt (table : List Entry) (key : Entry → Key) (column : Entry → Nat) (k : Key) : Nat :=
  ((table.find? fun e => key e = k).map column).getD 0

def keys (table : List Entry) (key : Entry → Key) : Finset Key := (table.map key).toFinset

theorem valueAt_of_mem {table : List Entry} {key : Entry → Key} {column : Entry → Nat}
    (hnodup : (table.map key).Nodup) {e : Entry} (he : e ∈ table) :
    valueAt table key column (key e) = column e := by
  induction table with
  | nil => simp at he
  | cons first table ih =>
    rw [List.map_cons, List.nodup_cons] at hnodup
    rcases List.mem_cons.mp he with rfl | htail
    · simp [valueAt]
    · have hne : key first ≠ key e := fun heq =>
        hnodup.1 (heq ▸ List.mem_map_of_mem htail)
      simpa [valueAt, hne] using ih hnodup.2 htail

theorem sum_column {table : List Entry} {key : Entry → Key} (column : Entry → Nat)
    (hnodup : (table.map key).Nodup) :
    (table.map column).sum = ∑ k ∈ keys table key, valueAt table key column k := by
  rw [keys, List.sum_toFinset _ hnodup, List.map_map]
  apply congrArg List.sum
  apply List.map_congr_left
  intro e he
  exact (valueAt_of_mem hnodup he).symm

section Growth

variable {A B : Finset Key} {f g : Key → Nat}

/-- A column that grows on the common keys and is 0 on the others grows in total
by exactly the sum of its increases. -/
theorem sum_eq_add_increases (hgrows : ∀ k ∈ A ∩ B, f k ≤ g k) (hgone : ∀ k ∈ A \ B, f k = 0)
    (hnew : ∀ k ∈ B \ A, g k = 0) :
    ∑ k ∈ B, g k = ∑ k ∈ A, f k + ∑ k ∈ A ∩ B, (g k - f k) := by
  have hA : ∑ k ∈ A, f k = ∑ k ∈ A ∩ B, f k := by
    rw [← Finset.sum_inter_add_sum_sdiff A B, Finset.sum_eq_zero hgone, add_zero]
  have hB : ∑ k ∈ B, g k = ∑ k ∈ A ∩ B, g k := by
    rw [← Finset.sum_inter_add_sum_sdiff B A, Finset.sum_eq_zero hnew, add_zero,
      Finset.inter_comm]
  rw [hA, hB, ← Finset.sum_add_distrib]
  apply Finset.sum_congr rfl
  intro k hk
  have := hgrows k hk
  omega

end Growth

section Attribution

variable {Owner Amount : Type} [DecidableEq Owner] [AddCommMonoid Amount] [PartialOrder Amount]
  [IsOrderedAddMonoid Amount]

omit [DecidableEq Key] in
/-- Entries with distinct keys, each within the amount of an owner that has only this
key, are together within the amounts of some owners, each counted once. -/
theorem exists_sum_le {table : List Entry} {key : Entry → Key} (owns : Owner → Key → Prop)
    (column : Entry → Amount) (amount : Owner → Amount) (hnodup : (table.map key).Nodup)
    (howns : ∀ {o k k'}, owns o k → owns o k' → k = k')
    (hle : ∀ e ∈ table, ∃ o, owns o (key e) ∧ column e ≤ amount o) :
    ∃ owners : Finset Owner, (table.map column).sum ≤ ∑ o ∈ owners, amount o ∧
      ∀ o ∈ owners, ∃ e ∈ table, owns o (key e) := by
  induction table with
  | nil => exact ⟨∅, by simp, by simp⟩
  | cons first table ih =>
    rw [List.map_cons, List.nodup_cons] at hnodup
    obtain ⟨owners, hsum, hall⟩ := ih hnodup.2 fun e he => hle e (by simp [he])
    obtain ⟨o, hown, hfirst⟩ := hle first (by simp)
    have hnew : o ∉ owners := by
      intro ho
      obtain ⟨e, he, hother⟩ := hall o ho
      apply hnodup.1
      rw [howns hown hother]
      exact List.mem_map_of_mem he
    refine ⟨insert o owners, ?_, ?_⟩
    · rw [List.map_cons, List.sum_cons, Finset.sum_insert hnew]
      exact add_le_add hfirst hsum
    · intro o' ho'
      rcases Finset.mem_insert.mp ho' with rfl | ho'
      · exact ⟨first, by simp, hown⟩
      · obtain ⟨e, he, hother⟩ := hall o' ho'
        exact ⟨e, by simp [he], hother⟩

end Attribution

end Tables
