import Mathlib.Order.Basic

/-! Code that stores into memory and may return an error at any point. What it has
stored by then stays stored. -/
namespace CLib

/-- From the memory before: a result, or `none` for an error, and the memory after. -/
def Stores (Mem α : Type) : Type := Mem → Option α × Mem

namespace Stores

variable {Mem Part Own α β : Type}

instance : Monad (Stores Mem) where
  pure a := fun m => (some a, m)
  bind x f := fun m =>
    match x m with
    | (some a, m) => f a m
    | (none, m) => (none, m)

def fail : Stores Mem α := fun m => (none, m)

def load : Stores Mem Mem := fun m => (some m, m)

def store (f : Mem → Mem) : Stores Mem Unit := fun m => (some (), f m)

def inside (get : Mem → Part) (set : Part → Mem → Mem) (x : Stores Part α) : Stores Mem α :=
  fun m => ((x (get m)).1, set (x (get m)).2 m)

/-- In a function, code that only reaches its own variables. -/
def own (x : Stores Own α) : Stores (Own × Mem) α := x.inside Prod.fst fun v m => (v, m.2)

/-- In a function, code that stores through the pointers of its caller. -/
def out (x : Stores Mem α) : Stores (Own × Mem) α := x.inside Prod.snd fun v m => (m.1, v)

def function (init : Own) (body : Stores (Own × Mem) α) : Stores Mem α :=
  fun m => ((body (init, m)).1, (body (init, m)).2.2)

def outcome (x : Stores Mem α) (m : Mem) : Option (α × Mem) := (x m).1.map fun a => (a, (x m).2)

@[simp] theorem outcome_pure (a : α) (m : Mem) :
    (pure a : Stores Mem α).outcome m = some (a, m) := rfl

@[simp] theorem outcome_fail (m : Mem) : (fail : Stores Mem α).outcome m = none := rfl

@[simp] theorem outcome_load (m : Mem) : (load : Stores Mem Mem).outcome m = some (m, m) := rfl

@[simp] theorem outcome_store (f : Mem → Mem) (m : Mem) :
    (store f).outcome m = some ((), f m) := rfl

@[simp] theorem outcome_bind (x : Stores Mem α) (f : α → Stores Mem β) (m : Mem) :
    (x >>= f).outcome m = (x.outcome m).bind fun r => (f r.1).outcome r.2 := by
  unfold outcome
  simp only [bind]
  cases x m with
  | mk result m' => cases result <;> rfl

theorem outcome_load_bind (f : Mem → Stores Mem α) (m : Mem) :
    (load >>= f).outcome m = (f m).outcome m := rfl

@[simp] theorem outcome_inside (get : Mem → Part) (set : Part → Mem → Mem) (x : Stores Part α)
    (m : Mem) :
    (x.inside get set).outcome m = (x.outcome (get m)).map fun r => (r.1, set r.2 m) := by
  unfold outcome inside
  rw [Option.map_map]
  rfl

@[simp] theorem outcome_own (x : Stores Own α) (v : Own) (m : Mem) :
    (own x).outcome (v, m) = (x.outcome v).map fun r => (r.1, r.2, m) :=
  outcome_inside _ _ x (v, m)

@[simp] theorem outcome_out (x : Stores Mem α) (v : Own) (m : Mem) :
    (out x).outcome (v, m) = (x.outcome m).map fun r => (r.1, v, r.2) :=
  outcome_inside _ _ x (v, m)

@[simp] theorem outcome_function (init : Own) (body : Stores (Own × Mem) α) (m : Mem) :
    (function init body).outcome m = (body.outcome (init, m)).map fun r => (r.1, r.2.2) := by
  unfold outcome function
  rw [Option.map_map]
  rfl

theorem outcome_ite (c : Prop) [Decidable c] (x y : Stores Mem α) (m : Mem) :
    (if c then x else y).outcome m = if c then x.outcome m else y.outcome m := by
  split <;> rfl

/-- An error leaves the memory as it was. -/
def Atomic (x : Stores Mem α) : Prop := ∀ m, (x m).1 = none → (x m).2 = m

theorem Atomic.eq {x : Stores Mem α} (h : Atomic x) (m : Mem) :
    x m = ((x.outcome m).map Prod.fst, ((x.outcome m).map Prod.snd).getD m) := by
  have hm := h m
  unfold outcome
  cases hx : x m with
  | mk result m' =>
    rw [hx] at hm
    cases result with
    | none => rw [show m' = m from hm rfl]; rfl
    | some a => rfl

theorem atomic_fail : Atomic (fail : Stores Mem α) := fun _ _ => rfl

/-- An error leaves the memory of the caller as it was. -/
def Sparing (body : Stores (Own × Mem) α) : Prop := ∀ m, (body m).1 = none → (body m).2.2 = m.2

theorem atomic_function {init : Own} {body : Stores (Own × Mem) α} (h : Sparing body) :
    Atomic (function init body) :=
  fun m hm => h (init, m) hm

theorem sparing_fail : Sparing (fail : Stores (Own × Mem) α) := fun _ _ => rfl

theorem sparing_out_store (f : Mem → Mem) : Sparing (out (store f) : Stores (Own × Mem) Unit) :=
  fun _ h => by cases h

/-- What a function does to its own variables first is of no matter. -/
theorem sparing_own_bind (x : Stores Own α) {f : α → Stores (Own × Mem) β}
    (h : ∀ a, Sparing (f a)) : Sparing (own x >>= f) := by
  rintro ⟨v, m⟩ hm
  simp only [bind, own, inside] at hm ⊢
  cases hx : (x v).1 with
  | none => rfl
  | some a =>
    simp only [hx] at hm
    exact h a ((x v).2, m) hm

theorem sparing_ite {c : Prop} [Decidable c] {x y : Stores (Own × Mem) α} (hx : Sparing x)
    (hy : Sparing y) : Sparing (if c then x else y) := by
  split
  · exact hx
  · exact hy

end Stores

end CLib
