import Mathlib.Order.Basic

/-! Code that makes system calls, run against a machine whose time is counted in
those calls. Everything the machine does between two calls is one step of its
time, so a statement about every machine is one about every interleaving. -/
namespace Trace

/-- From the time of its first call: a result, and how many calls were made. -/
def Calls (α : Type) : Type := Nat → α × Nat

namespace Calls

variable {α β : Type}

def value (x : Calls α) (n : Nat) : α := (x n).1

def after (x : Calls α) (n : Nat) : Nat := n + (x n).2

instance : Monad Calls where
  pure a := fun _ => (a, 0)
  bind x f := fun n => ((f (x n).1 (n + (x n).2)).1, (x n).2 + (f (x n).1 (n + (x n).2)).2)

/-- One system call, whose answer depends on when it is made. -/
def call (answer : Nat → α) : Calls α := fun n => (answer n, 1)

@[simp] theorem value_pure (a : α) (n : Nat) : (pure a : Calls α).value n = a := rfl

@[simp] theorem after_pure (a : α) (n : Nat) : (pure a : Calls α).after n = n := rfl

@[simp] theorem value_call (answer : Nat → α) (n : Nat) : (call answer).value n = answer n := rfl

@[simp] theorem after_call (answer : Nat → α) (n : Nat) : (call answer).after n = n + 1 := rfl

@[simp] theorem value_bind (x : Calls α) (f : α → Calls β) (n : Nat) :
    (x >>= f).value n = (f (x.value n)).value (x.after n) := rfl

@[simp] theorem after_bind (x : Calls α) (f : α → Calls β) (n : Nat) :
    (x >>= f).after n = (f (x.value n)).after (x.after n) := by
  change n + ((x n).2 + _) = n + (x n).2 + _
  exact (Nat.add_assoc n _ _).symm

theorem le_after (x : Calls α) (n : Nat) : n ≤ x.after n := Nat.le_add_right n _

theorem value_ite (c : Prop) [Decidable c] (x y : Calls α) (n : Nat) :
    (if c then x else y).value n = if c then x.value n else y.value n := by
  split <;> rfl

theorem after_ite (c : Prop) [Decidable c] (x y : Calls α) (n : Nat) :
    (if c then x else y).after n = if c then x.after n else y.after n := by
  split <;> rfl

end Calls

end Trace
