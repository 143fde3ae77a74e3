import Mathlib.Data.List.Sort

/-! `qsort`. The C standard says only that the result is the input, reordered so
that the comparator is never positive between neighbours; equal elements come in
any order. A `Qsort` is one library's choice among these. -/
namespace CLib

/-- A comparator that `qsort` may be given: it orders any two elements, transitively. -/
structure Comparator {α : Type} (cmp : α → α → Int) : Prop where
  total : ∀ a b, cmp a b ≤ 0 ∨ cmp b a ≤ 0
  trans : ∀ {a b c}, cmp a b ≤ 0 → cmp b c ≤ 0 → cmp a c ≤ 0

/-- A comparator that compares keys orders its elements as their keys are ordered. -/
theorem Comparator.of_key {α Key : Type} [LinearOrder Key] {cmp : α → α → Int} (key : α → Key)
    (h : ∀ a b, cmp a b ≤ 0 ↔ key a ≤ key b) : Comparator cmp where
  total a b := by
    rw [h, h]
    exact le_total (key a) (key b)
  trans hab hbc := by
    rw [h] at hab hbc ⊢
    exact hab.trans hbc

structure Qsort where
  sort : {α : Type} → (α → α → Int) → List α → List α
  perm : ∀ {α : Type} (cmp : α → α → Int) (l : List α), (sort cmp l).Perm l
  sorted : ∀ {α : Type} {cmp : α → α → Int}, Comparator cmp → ∀ l : List α,
    (sort cmp l).Pairwise fun a b => cmp a b ≤ 0

def Qsort.insertion : Qsort where
  sort cmp l := l.insertionSort fun a b => cmp a b ≤ 0
  perm cmp l := List.perm_insertionSort _ l
  sorted {α cmp} h l := by
    have : Std.Total fun a b : α => cmp a b ≤ 0 := ⟨h.total⟩
    have : IsTrans α fun a b => cmp a b ≤ 0 := ⟨fun _ _ _ => h.trans⟩
    exact List.pairwise_insertionSort _ l

end CLib
