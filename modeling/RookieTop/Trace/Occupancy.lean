import Mathlib.Order.Basic

/-! Names that are given to one holder after another. A holder keeps a name for
one stretch of time, and is told apart from the other holders of that name by a
stamp. Two readings of one stamp therefore enclose only its own holder. -/
namespace Trace

/-- Who holds which name at each time. -/
structure Occupancy (Name Holder Stamp : Type) where
  holder : Nat → Name → Option Holder
  stamp : Holder → Stamp
  contiguous : ∀ {a b c name h}, a ≤ b → b ≤ c → holder a name = some h →
    holder c name = some h → holder b name = some h
  stamp_inj : ∀ {a b name h k}, holder a name = some h → holder b name = some k →
    stamp h = stamp k → h = k

namespace Occupancy

variable {Name Holder Stamp : Type} (o : Occupancy Name Holder Stamp)

def Reads (time : Nat) (name : Name) (s : Stamp) : Prop :=
  ∃ h, o.holder time name = some h ∧ o.stamp h = s

theorem reads_unique {time : Nat} {name : Name} {s t : Stamp} (hs : o.Reads time name s)
    (ht : o.Reads time name t) : s = t := by
  obtain ⟨h, hh, rfl⟩ := hs
  obtain ⟨k, hk, rfl⟩ := ht
  rw [hh] at hk
  rw [Option.some.inj hk]

/-- The same stamp read at both ends of a stretch is the stamp all through it. -/
theorem reads_between {a b c : Nat} {name : Name} {s : Stamp} (hab : a ≤ b) (hbc : b ≤ c)
    (ha : o.Reads a name s) (hc : o.Reads c name s) : o.Reads b name s := by
  obtain ⟨h, hh, rfl⟩ := ha
  obtain ⟨k, hk, hstamp⟩ := hc
  obtain rfl := o.stamp_inj hk hh hstamp
  exact ⟨k, o.contiguous hab hbc hh hk, rfl⟩

end Occupancy

end Trace
