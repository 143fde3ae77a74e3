import RookieTop.Trace.Calls
import Mathlib.Data.Finset.Basic
import Mathlib.Data.Finset.Lattice.Lemmas

/-! Code that makes system calls and holds resources meanwhile. Each resource is born
of one call, so that no two of them are ever the same; a ledger of what is held tells
whether code uses, or gives back, only what it has. The rules are those of a logic of
pre- and postconditions on what is held, with the frame built in. -/
namespace Trace

inductive Event (Res : Type) where
  | acquire (r : Res)
  | use (r : Res) (within : Bool)
  | release (r : Res)

/-- From the time of its first call: a result, how many calls were made, and what was
done with resources. -/
def Held (Res α : Type) : Type := Nat → (α × Nat) × List (Event Res)

namespace Held

variable {Res α β : Type}

def calls (x : Held Res α) : Calls α := fun n => (x n).1

def events (x : Held Res α) (n : Nat) : List (Event Res) := (x n).2

def value (x : Held Res α) (n : Nat) : α := x.calls.value n

def after (x : Held Res α) (n : Nat) : Nat := x.calls.after n

instance : Monad (Held Res) where
  pure a := fun _ => ((a, 0), [])
  bind x f := fun n =>
    (((f (x n).1.1 (n + (x n).1.2)).1.1, (x n).1.2 + (f (x n).1.1 (n + (x n).1.2)).1.2),
      (x n).2 ++ (f (x n).1.1 (n + (x n).1.2)).2)

def ofCalls (x : Calls α) : Held Res α := fun n => (x n, [])

def acquire (answer : Nat → Option α) (res : α → Res) : Held Res (Option α) :=
  fun n => ((answer n, 1), (answer n).toList.map fun a => .acquire (res a))

def use (r : Res) (within : Bool) : Held Res Unit := fun _ => (((), 0), [.use r within])

def release (r : Res) : Held Res Unit := fun _ => (((), 0), [.release r])

@[simp] theorem calls_pure (a : α) : (pure a : Held Res α).calls = pure a := rfl

@[simp] theorem calls_bind (x : Held Res α) (f : α → Held Res β) :
    (x >>= f).calls = x.calls >>= fun a => (f a).calls := rfl

theorem calls_bind_congr {x : Held Res α} {y : Calls α} {f : α → Held Res β} {g : α → Calls β}
    (hx : x.calls = y) (hf : ∀ a, (f a).calls = g a) : (x >>= f).calls = y >>= g := by
  rw [calls_bind, hx]
  exact congrArg (y >>= ·) (funext hf)

@[simp] theorem calls_ofCalls (x : Calls α) : (ofCalls x : Held Res α).calls = x := rfl

@[simp] theorem calls_acquire (answer : Nat → Option α) (res : α → Res) :
    (acquire answer res).calls = Calls.call answer := rfl

@[simp] theorem calls_use (r : Res) (within : Bool) : (use r within).calls = pure () := rfl

@[simp] theorem calls_release (r : Res) : (release r).calls = pure () := rfl

theorem calls_ite (c : Prop) [Decidable c] (x y : Held Res α) :
    (if c then x else y).calls = if c then x.calls else y.calls := by
  split <;> rfl

theorem events_bind (x : Held Res α) (f : α → Held Res β) (n : Nat) :
    (x >>= f).events n = x.events n ++ (f (x.value n)).events (x.after n) := rfl

theorem after_bind (x : Held Res α) (f : α → Held Res β) (n : Nat) :
    (x >>= f).after n = (f (x.value n)).after (x.after n) :=
  Calls.after_bind x.calls (fun a => (f a).calls) n

scoped instance : LawfulMonad Calls := LawfulMonad.mk' Calls
  (fun _ => rfl)
  (fun a f => by
    funext n
    change ((f a (n + 0)).1, 0 + (f a (n + 0)).2) = f a n
    rw [Nat.add_zero, Nat.zero_add])
  (fun x f g => by
    funext n
    change ((g _ (n + ((x n).2 + _))).1, (x n).2 + _ + _) =
      ((g _ (n + (x n).2 + _)).1, (x n).2 + (_ + _))
    rw [Nat.add_assoc, Nat.add_assoc]
    rfl)

theorem calls_use_bind (r : Res) (within : Bool) (f : Unit → Held Res α) :
    (use r within >>= f).calls = (f ()).calls := by
  rw [calls_bind, calls_use, pure_bind]

theorem call_bind_congr {answer : Nat → α} {answer' : Nat → β} {γ : Type} {f : α → Calls γ}
    {g : β → Calls γ} (h : ∀ n, f (answer n) = g (answer' n)) :
    (Calls.call answer >>= f) = Calls.call answer' >>= g := by
  funext n
  change ((f (answer n) (n + 1)).1, 1 + (f (answer n) (n + 1)).2) =
    ((g (answer' n) (n + 1)).1, 1 + (g (answer' n) (n + 1)).2)
  rw [h n]

end Held

section Ledger

variable {Res α β : Type} [DecidableEq Res]

/-- What is held after an event, unless it is a misuse. -/
def settle (held : Finset Res) : Event Res → Option (Finset Res)
  | .acquire r => if r ∈ held then none else some (insert r held)
  | .use r within => if r ∈ held ∧ within then some held else none
  | .release r => if r ∈ held then some (held.erase r) else none

def settleAll (held : Finset Res) (events : List (Event Res)) : Option (Finset Res) :=
  events.foldlM settle held

theorem settleAll_append (held : Finset Res) (first second : List (Event Res)) :
    settleAll held (first ++ second) =
      (settleAll held first).bind fun held => settleAll held second :=
  List.foldlM_append

theorem settleAll_singleton (held : Finset Res) (event : Event Res) :
    settleAll held [event] = settle held event := by
  unfold settleAll
  rw [List.foldlM_cons]
  exact bind_pure _

variable (born : Res → Nat)

/-- From whatever is held at its start the code takes `pre` and leaves the rest alone. It
misuses nothing, and leaves `owned` in the place of `pre`, of which `post` says what it is. -/
def Triple (pre : Finset Res) (x : Held Res α) (post : α → Finset Res → Prop) : Prop :=
  ∀ n frame, Disjoint pre frame → (∀ r ∈ pre ∪ frame, born r < n) →
    ∃ owned, post (x.value n) owned ∧ Disjoint owned frame ∧ (∀ r ∈ owned, born r < x.after n) ∧
      settleAll (pre ∪ frame) (x.events n) = some (owned ∪ frame)

/-- Whatever the code comes to hold, it has given back in the end. -/
def Balanced (x : Held Res α) : Prop := Triple born ∅ x fun _ owned => owned = ∅

variable {born} {pre : Finset Res} {x : Held Res α} {post : α → Finset Res → Prop}

theorem triple_pure {a : α} (h : post a pre) : Triple born pre (pure a) post :=
  fun _ _ hdisj hborn => ⟨pre, h, hdisj, fun r hr => hborn r (Finset.mem_union_left _ hr), rfl⟩

theorem triple_ofCalls {x : Calls α} (h : ∀ a, post a pre) :
    Triple born pre (Held.ofCalls x) post :=
  fun n _ hdisj hborn => ⟨pre, h _, hdisj,
    fun r hr => (hborn r (Finset.mem_union_left _ hr)).trans_le (Calls.le_after x n), rfl⟩

theorem triple_keeps (x : Calls α) :
    Triple born pre (Held.ofCalls x) fun _ owned => owned = pre :=
  triple_ofCalls fun _ => rfl

theorem triple_bind {mid : α → Finset Res → Prop} {f : α → Held Res β}
    {post : β → Finset Res → Prop} (hx : Triple born pre x mid)
    (hf : ∀ a owned, mid a owned → Triple born owned (f a) post) :
    Triple born pre (x >>= f) post := by
  intro n frame hdisj hborn
  obtain ⟨owned, hmid, hdisj', hborn', hx⟩ := hx n frame hdisj hborn
  have hall : ∀ r ∈ owned ∪ frame, born r < x.after n := by
    intro r hr
    rcases Finset.mem_union.mp hr with hr | hr
    · exact hborn' r hr
    · exact (hborn r (Finset.mem_union_right _ hr)).trans_le (Calls.le_after _ n)
  obtain ⟨owned', hpost, hdisj'', hborn'', hf⟩ := hf _ owned hmid (x.after n) frame hdisj' hall
  refine ⟨owned', hpost, hdisj'', ?_, ?_⟩
  · rw [Held.after_bind]
    exact hborn''
  · rw [Held.events_bind, settleAll_append, hx, Option.bind_some, hf]

theorem triple_ite {c : Prop} [Decidable c] {y : Held Res α} (hx : c → Triple born pre x post)
    (hy : ¬ c → Triple born pre y post) : Triple born pre (if c then x else y) post := by
  split
  · exact hx ‹c›
  · exact hy ‹¬ c›

theorem Triple.weaken {post' : α → Finset Res → Prop} (h : Triple born pre x post)
    (hpost : ∀ a owned, post a owned → post' a owned) : Triple born pre x post' := by
  intro n frame hdisj hborn
  obtain ⟨owned, hown, hrest⟩ := h n frame hdisj hborn
  exact ⟨owned, hpost _ _ hown, hrest⟩

/-- What code does not need it leaves alone. -/
theorem Triple.frame {extra : Finset Res} (h : Triple born pre x post)
    (hextra : Disjoint pre extra) :
    Triple born (pre ∪ extra) x fun a owned =>
      ∃ own, post a own ∧ Disjoint own extra ∧ owned = own ∪ extra := by
  intro n frame hdisj hborn
  rw [Finset.disjoint_union_left] at hdisj
  rw [Finset.union_assoc] at hborn ⊢
  obtain ⟨owned, hpost, hdisj', hborn', hx⟩ := h n (extra ∪ frame)
    (Finset.disjoint_union_right.mpr ⟨hextra, hdisj.1⟩) hborn
  rw [Finset.disjoint_union_right] at hdisj'
  refine ⟨owned ∪ extra, ⟨owned, hpost, hdisj'.1, rfl⟩,
    Finset.disjoint_union_left.mpr ⟨hdisj'.2, hdisj.2⟩, fun r hr => ?_, ?_⟩
  · rcases Finset.mem_union.mp hr with hr | hr
    · exact hborn' r hr
    · have hold : r ∈ pre ∪ (extra ∪ frame) :=
        Finset.mem_union_right _ (Finset.mem_union_left _ hr)
      exact (hborn r hold).trans_le (Calls.le_after _ n)
  · rw [Finset.union_assoc]
    exact hx

/-- Code that keeps what it needs may run while more is held. -/
theorem Triple.within {needs : Finset Res} (h : Triple born needs x fun _ owned => owned = needs)
    (hneeds : needs ⊆ pre) : Triple born pre x fun _ owned => owned = pre := by
  have hframe := h.frame (@Finset.disjoint_sdiff _ _ needs pre)
  rw [Finset.union_sdiff_of_subset hneeds] at hframe
  refine hframe.weaken ?_
  rintro a _ ⟨own, rfl, -, rfl⟩
  exact Finset.union_sdiff_of_subset hneeds

theorem Triple.giveBack {own rest : Finset Res} (h : Triple born own x fun _ owned => owned = ∅)
    (hrest : Disjoint own rest) : Triple born (own ∪ rest) x fun _ owned => owned = rest := by
  refine (h.frame hrest).weaken ?_
  rintro a _ ⟨own, rfl, -, rfl⟩
  exact Finset.empty_union rest

theorem Balanced.keeps (h : Balanced born x) (pre : Finset Res) :
    Triple born pre x fun _ owned => owned = pre :=
  Triple.within h (Finset.empty_subset pre)

theorem Balanced.settles (h : Balanced born x) (n : Nat) :
    settleAll ∅ (x.events n) = some ∅ := by
  obtain ⟨owned, rfl, -, -, hsettles⟩ :=
    h n ∅ (Finset.disjoint_empty_left _) fun r hr => absurd hr (by simp)
  exact hsettles

theorem balanced_pure (a : α) : Balanced born (pure a : Held Res α) := triple_pure rfl

theorem Balanced.bind {f : α → Held Res β} (hx : Balanced born x) (hf : ∀ a, Balanced born (f a)) :
    Balanced born (x >>= f) := by
  refine triple_bind hx ?_
  rintro a _ rfl
  exact hf a

theorem Balanced.ite {c : Prop} [Decidable c] {y : Held Res α} (hx : Balanced born x)
    (hy : Balanced born y) : Balanced born (if c then x else y) :=
  triple_ite (fun _ => hx) fun _ => hy

inductive Acquired (answer : Nat → Option α) (res : α → Res) (pre : Finset Res) :
    Option α → Finset Res → Prop
  | failed : Acquired answer res pre none pre
  | handed (n : Nat) (a : α) (given : answer n = some a) (new : res a ∉ pre) :
      Acquired answer res pre (some a) (insert (res a) pre)

theorem triple_acquire {answer : Nat → Option α} {res : α → Res}
    (hborn : ∀ n a, answer n = some a → born (res a) = n) :
    Triple born pre (Held.acquire answer res) (Acquired answer res pre) := by
  intro n frame hdisj hold
  change ∃ owned, Acquired answer res pre (answer n) owned ∧ Disjoint owned frame ∧
    (∀ r ∈ owned, born r < n + 1) ∧
    settleAll (pre ∪ frame) ((answer n).toList.map fun a => .acquire (res a)) =
      some (owned ∪ frame)
  have hpre : ∀ r ∈ pre, born r < n + 1 :=
    fun r hr => (hold r (Finset.mem_union_left _ hr)).trans (Nat.lt_succ_self n)
  cases hanswer : answer n with
  | none => exact ⟨pre, .failed, hdisj, hpre, rfl⟩
  | some a =>
    have hnow := hborn n a hanswer
    have hnew : res a ∉ pre ∪ frame := fun hmem => by
      have hlt := hold _ hmem
      omega
    have hsplit := hnew
    rw [Finset.mem_union, not_or] at hsplit
    refine ⟨_, .handed n a hanswer hsplit.1, ?_, ?_, ?_⟩
    · exact Finset.disjoint_insert_left.mpr ⟨hsplit.2, hdisj⟩
    · intro r hr
      rcases Finset.mem_insert.mp hr with rfl | hr
      · omega
      · exact hpre r hr
    · rw [Option.toList_some, List.map_singleton, settleAll_singleton, settle, if_neg hnew,
        Finset.insert_union]

theorem triple_use {r : Res} (hr : r ∈ pre) :
    Triple born pre (Held.use r true) fun _ owned => owned = pre := by
  intro n frame hdisj hborn
  refine ⟨pre, rfl, hdisj, fun s hs => hborn s (Finset.mem_union_left _ hs), ?_⟩
  change settleAll (pre ∪ frame) [.use r true] = _
  rw [settleAll_singleton, settle, if_pos ⟨Finset.mem_union_left _ hr, rfl⟩]

theorem triple_release {r : Res} (hr : r ∈ pre) :
    Triple born pre (Held.release r) fun _ owned => owned = pre.erase r := by
  intro n frame hdisj hborn
  refine ⟨pre.erase r, rfl, hdisj.mono_left (Finset.erase_subset _ _),
    fun s hs => hborn s (Finset.mem_union_left _ (Finset.mem_of_mem_erase hs)), ?_⟩
  change settleAll (pre ∪ frame) [.release r] = _
  have hframe : r ∉ frame := Finset.disjoint_left.mp hdisj hr
  rw [settleAll_singleton, settle, if_pos (Finset.mem_union_left _ hr), Finset.erase_union_distrib,
    Finset.erase_eq_of_notMem hframe]

end Ledger

end Trace
