import RookieTop.NetworkLines
import RookieTop.Tables.KeyedSum
import Mathlib.Tactic.FieldSimp
import Mathlib.Tactic.NormNum

/-! Two readings of `/proc/net/dev` and the rate between them, against what each
interface really did in the meantime. -/
namespace RookieTop.NetworkTable

open CLib Network NetworkLines Tables
open scoped BigOperators

/-- A content of `/proc/net/dev` in which no name comes twice. -/
structure NetTable extends Table where
  distinct : ((rows.filterMap Row.interface?).map Interface.name).Nodup

namespace NetTable

variable (t : NetTable)

def names : Finset Bytes := keys t.interfaces Interface.name

def rxAt (name : Bytes) : Nat := valueAt t.interfaces Interface.name (Interface.counter · 0) name
def txAt (name : Bytes) : Nat := valueAt t.interfaces Interface.name (Interface.counter · 8) name

theorem names_nodup : (t.interfaces.map Interface.name).Nodup :=
  t.distinct.sublist (List.filter_sublist.map _)

theorem rxSum_eq : t.rxSum = ∑ name ∈ t.names, t.rxAt name := sum_column _ t.names_nodup

theorem txSum_eq : t.txSum = ∑ name ∈ t.names, t.txAt name := sum_column _ t.names_nodup

end NetTable

/-- The two readings and the rate between them, as `collect_overview` chains them. -/
def sampledRate (before after : NetTable) (seconds : ℚ) : Option (ℚ × ℚ) := do
  let prev ← networkParse ⟨before.text, false⟩
  let curr ← networkParse ⟨after.text, false⟩
  networkRate prev curr seconds

section Rates

variable (before after : NetTable)

/-- No interface lost counts: the common ones did not go back, and those that
came or went have no counts. -/
structure Steady : Prop where
  grows : ∀ name ∈ before.names ∩ after.names,
    before.rxAt name ≤ after.rxAt name ∧ before.txAt name ≤ after.txAt name
  gone : ∀ name ∈ before.names \ after.names, before.rxAt name = 0 ∧ before.txAt name = 0
  new : ∀ name ∈ after.names \ before.names, after.rxAt name = 0 ∧ after.txAt name = 0

def RateIsExact (seconds : ℚ) : Prop :=
  ∀ rx tx, sampledRate before after seconds = some (rx, tx) →
    Steady before after ∧
    rx * seconds = (∑ name ∈ before.names ∩ after.names,
      (after.rxAt name - before.rxAt name) : Nat) ∧
    tx * seconds = (∑ name ∈ before.names ∩ after.names,
      (after.txAt name - before.txAt name) : Nat)

def Unavailable (seconds : ℚ) : Prop :=
  seconds ≤ 0 ∨ after.rxSum < before.rxSum ∨ after.txSum < before.txSum ∨
  2 ^ 64 ≤ before.rxSum ∨ 2 ^ 64 ≤ before.txSum ∨ 2 ^ 64 ≤ after.rxSum ∨ 2 ^ 64 ≤ after.txSum

variable {before after}

theorem sampledRate_eq {seconds : ℚ} (h : ¬ Unavailable before after seconds) :
    sampledRate before after seconds =
      some (((after.rxSum - before.rxSum : Nat) : ℚ) / seconds,
        ((after.txSum - before.txSum : Nat) : ℚ) / seconds) := by
  simp only [Unavailable, not_or, not_le, not_lt] at h
  obtain ⟨hs, hrx, htx, h1, h2, h3, h4⟩ := h
  have hb : networkParse ⟨before.text, false⟩ =
      some ⟨UInt64.ofNat before.rxSum, UInt64.ofNat before.txSum⟩ := by
    rw [networkParse_text, if_pos ⟨h1, h2⟩]
  have ha : networkParse ⟨after.text, false⟩ =
      some ⟨UInt64.ofNat after.rxSum, UInt64.ofNat after.txSum⟩ := by
    rw [networkParse_text, if_pos ⟨h3, h4⟩]
  have hsub {a b : Nat} (hab : a ≤ b) (hblt : b < 2 ^ 64) :
      ¬ UInt64.ofNat b < UInt64.ofNat a ∧ (UInt64.ofNat b - UInt64.ofNat a).toNat = b - a := by
    have hle : UInt64.ofNat a ≤ UInt64.ofNat b := by
      rw [UInt64.le_iff_toNat_le, UInt64.toNat_ofNat_of_lt' hblt,
        UInt64.toNat_ofNat_of_lt' (Nat.lt_of_le_of_lt hab hblt)]
      exact hab
    refine ⟨UInt64.not_lt.mpr hle, ?_⟩
    rw [UInt64.toNat_sub_of_le _ _ hle, UInt64.toNat_ofNat_of_lt' hblt,
      UInt64.toNat_ofNat_of_lt' (Nat.lt_of_le_of_lt hab hblt)]
  obtain ⟨hr, hrv⟩ := hsub hrx h3
  obtain ⟨ht, htv⟩ := hsub htx h4
  simp only [sampledRate, hb, ha, bind, Option.bind_some, networkRate]
  rw [if_neg (by simp [hr, ht, hs]), hrv, htv]

theorem sampledRate_eq_none {seconds : ℚ} (h : Unavailable before after seconds) :
    sampledRate before after seconds = none := by
  simp only [sampledRate, networkParse_text]
  by_cases hb : before.rxSum < 2 ^ 64 ∧ before.txSum < 2 ^ 64
  · by_cases ha : after.rxSum < 2 ^ 64 ∧ after.txSum < 2 ^ 64
    · rw [if_pos hb, if_pos ha]
      have hlt {a b : Nat} (hab : a < b) (hblt : b < 2 ^ 64) :
          UInt64.ofNat a < UInt64.ofNat b := by
        rw [UInt64.lt_iff_toNat_lt, UInt64.toNat_ofNat_of_lt' hblt,
          UInt64.toNat_ofNat_of_lt' (Nat.lt_trans hab hblt)]
        exact hab
      simp only [bind, Option.bind_some, networkRate]
      rw [if_pos]
      rcases h with h | h | h | h | h | h | h
      · exact Or.inl h
      · exact Or.inr (Or.inl (hlt h hb.1))
      · exact Or.inr (Or.inr (hlt h hb.2))
      all_goals omega
    · rw [if_pos hb, if_neg ha]
      rfl
  · rw [if_neg hb]
    rfl

theorem Steady.rxSum (h : Steady before after) :
    after.rxSum - before.rxSum =
      ∑ name ∈ before.names ∩ after.names, (after.rxAt name - before.rxAt name) := by
  have hsum := sum_eq_add_increases (fun k hk => (h.grows k hk).1) (fun k hk => (h.gone k hk).1)
    (fun k hk => (h.new k hk).1)
  rw [after.rxSum_eq, before.rxSum_eq]
  omega

theorem Steady.txSum (h : Steady before after) :
    after.txSum - before.txSum =
      ∑ name ∈ before.names ∩ after.names, (after.txAt name - before.txAt name) := by
  have hsum := sum_eq_add_increases (fun k hk => (h.grows k hk).2) (fun k hk => (h.gone k hk).2)
    (fun k hk => (h.new k hk).2)
  rw [after.txSum_eq, before.txSum_eq]
  omega

/-- Only a change that shows in a total is noticed. -/
theorem rateIsExact_iff (before after : NetTable) (seconds : ℚ) :
    RateIsExact before after seconds ↔
      Steady before after ∨ Unavailable before after seconds := by
  constructor
  · intro h
    by_contra hcon
    rw [not_or] at hcon
    exact hcon.1 (h _ _ (sampledRate_eq hcon.2)).1
  · rintro hcase rx tx hrate
    have hav : ¬ Unavailable before after seconds := fun hu => by
      rw [sampledRate_eq_none hu] at hrate
      simp at hrate
    have hsteady : Steady before after := hcase.resolve_right hav
    have hpos : seconds ≠ 0 := fun h0 => hav (Or.inl (by rw [h0]))
    rw [sampledRate_eq hav, Option.some.injEq, Prod.mk.injEq] at hrate
    obtain ⟨rfl, rfl⟩ := hrate
    exact ⟨hsteady, by rw [div_mul_cancel₀ _ hpos, hsteady.rxSum],
      by rw [div_mul_cancel₀ _ hpos, hsteady.txSum]⟩

def receiving (name : Bytes) (rx : UInt64)
    (hname : name ≠ [] ∧ name.length < interfaceNameMax ∧
      ∀ b ∈ name, isblank b = false ∧ b ≠ 58 ∧ b ≠ 10 ∧ b ≠ 0) : Row :=
  .interface
    (sampleInterface name rx.toNat 0 ⟨rx.toNat_lt, by decide⟩ hname.1 hname.2.1 hname.2.2)

def sampleTable (eth wlan : UInt64) : NetTable where
  rows := [receiving (ascii "eth0") eth (by decide +kernel),
    receiving (ascii "wlan0") wlan (by decide +kernel),
    .header ⟨[], by decide, by decide⟩]
  short := by
    have hlen : ∀ v : UInt64, (decimal v.toNat).length ≤ 20 := fun v =>
      decimal_length_le (by norm_num) (by have := v.toNat_lt; omega)
    have heth := hlen eth
    have hwlan := hlen wlan
    have hzero : (decimal 0).length = 1 := rfl
    intro i hi
    simp only [receiving, List.mem_cons, reduceCtorEq, Row.interface.injEq, List.not_mem_nil,
      or_false] at hi
    rcases hi with rfl | rfl
    all_goals
      simp [Interface.text, sampleInterface, sampleCounters, writtenText, Written.text,
        Written.ofDecimal, ascii, hzero]
      omega
  distinct := by
    simp only [receiving, Row.interface?, sampleInterface, List.filterMap_cons, List.filterMap_nil,
      List.map_cons, List.map_nil]
    decide

/-- The counter of `eth0` went back from 1000 to 0 while `wlan0` received 5000
bytes: the rate of that second is reported as 4000. -/
theorem masked_reset :
    sampledRate (sampleTable 1000 0) (sampleTable 0 5000) 1 = some (4000, 0) ∧
      ¬ RateIsExact (sampleTable 1000 0) (sampleTable 0 5000) 1 := by
  have hrate : sampledRate (sampleTable 1000 0) (sampleTable 0 5000) 1 = some (4000, 0) := by
    decide +kernel
  refine ⟨hrate, fun h => ?_⟩
  have hgrows := ((h _ _ hrate).1.grows (ascii "eth0") (by decide +kernel)).1
  exact absurd hgrows (by decide +kernel)

end Rates

end RookieTop.NetworkTable
