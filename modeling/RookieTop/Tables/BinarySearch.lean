import Mathlib.Order.Lattice

/-! Binary search in a list that is indexed like an array. -/
namespace Tables

variable {Entry Key : Type} [LinearOrder Key]

/-- Searches `[low, high)`. The interval shrinks in every pass, so its length
bounds the passes. -/
def searchLoop (key : Entry → Key) (items : List Entry) (k : Key) :
    Nat → Nat → Nat → Option Entry
  | 0, _, _ => none
  | fuel + 1, low, high =>
    if low < high then
      let mid := low + (high - low) / 2
      match items[mid]? with
      | none => none
      | some item =>
        if key item = k then some item
        else if key item < k then searchLoop key items k fuel (mid + 1) high
        else searchLoop key items k fuel low mid
    else none

def binarySearch (key : Entry → Key) (items : List Entry) (k : Key) : Option Entry :=
  searchLoop key items k items.length 0 items.length

theorem searchLoop_mem {key : Entry → Key} {items : List Entry} {k : Key} {item : Entry}
    {fuel low high : Nat} (h : searchLoop key items k fuel low high = some item) :
    item ∈ items ∧ key item = k := by
  induction fuel generalizing low high with
  | zero => simp [searchLoop] at h
  | succ fuel ih =>
    rw [searchLoop] at h
    split at h
    · dsimp only at h
      split at h
      · simp at h
      · rename_i found hfound
        split at h
        · rename_i hkey
          cases Option.some.inj h
          exact ⟨List.mem_of_getElem? hfound, hkey⟩
        · split at h
          · exact ih h
          · exact ih h
    · simp at h

theorem binarySearch_mem {key : Entry → Key} {items : List Entry} {k : Key} {item : Entry}
    (h : binarySearch key items k = some item) : item ∈ items ∧ key item = k :=
  searchLoop_mem h

/-- In a sorted list the interval never loses the entry searched for. -/
theorem searchLoop_of_mem {key : Entry → Key} {items : List Entry}
    (hsorted : items.Pairwise fun a b => key a < key b) {i : Nat} (hi : i < items.length)
    {fuel low high : Nat} (hlow : low ≤ i) (hhigh : i < high) (hend : high ≤ items.length)
    (hfuel : high - low ≤ fuel) :
    searchLoop key items (key items[i]) fuel low high = some items[i] := by
  rw [List.pairwise_iff_getElem] at hsorted
  induction fuel generalizing low high with
  | zero => omega
  | succ fuel ih =>
    have hmid : low + (high - low) / 2 < items.length := by omega
    rw [searchLoop, if_pos (by omega)]
    simp only [List.getElem?_eq_getElem hmid]
    rcases Nat.lt_trichotomy (low + (high - low) / 2) i with hlt | heq | hgt
    · have hless := hsorted _ i hmid hi hlt
      rw [if_neg hless.ne, if_pos hless]
      exact ih (by omega) hhigh hend (by omega)
    · subst heq
      rw [if_pos rfl]
    · have hmore := hsorted i _ hi hmid hgt
      rw [if_neg hmore.ne', if_neg hmore.not_gt]
      exact ih hlow hgt (by omega) (by omega)

/-- On sorted keys the search is the lookup. -/
theorem binarySearch_eq_some_iff {key : Entry → Key} {items : List Entry}
    (hsorted : items.Pairwise fun a b => key a < key b) {k : Key} {item : Entry} :
    binarySearch key items k = some item ↔ item ∈ items ∧ key item = k := by
  constructor
  · exact binarySearch_mem
  · rintro ⟨hmem, rfl⟩
    obtain ⟨i, hi, rfl⟩ := List.getElem_of_mem hmem
    exact searchLoop_of_mem hsorted hi (Nat.zero_le i) hi (le_refl _) (by omega)

end Tables
