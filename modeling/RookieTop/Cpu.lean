import RookieTop.CLib.Scan
import RookieTop.Sys
import Mathlib.Algebra.Order.Field.Rat
import Mathlib.Tactic.FieldSimp
import Mathlib.Tactic.Linarith
import Mathlib.Tactic.Positivity

/-! The aggregate line of `/proc/stat` and the CPU share between two samples of
it. Counters are 64-bit and wrap; percentages are exact rationals. -/
namespace RookieTop.Cpu

open CLib Trace Sys

def cpuLineMax : Nat := 512

structure CpuSample where
  user : UInt64
  nice : UInt64
  system : UInt64
  idle : UInt64
  iowait : UInt64
  irq : UInt64
  softirq : UInt64
  steal : UInt64
  deriving DecidableEq, Repr

def cpuFormat : List Directive := (ascii "cpu").map .literal ++ u64Fields 8

def field (fields : List Scanned) (i : Nat) : UInt64 :=
  match fields[i]? with
  | some (.u64 v) => v
  | _ => 0

def cpuParseLine (line : Bytes) : Option CpuSample :=
  let fields := sscanf cpuFormat line
  if fields.length < 4 then none
  else some
    { user := field fields 0
      nice := field fields 1
      system := field fields 2
      idle := field fields 3
      iowait := field fields 4
      irq := field fields 5
      softirq := field fields 6
      steal := field fields 7 }

def cpuRead (env : Env) : Calls (Option CpuSample) := do
  match ← readLine env .stat cpuLineMax with
  | none => return none
  | some line => return cpuParseLine line

def delta (prev curr : UInt64) : Option UInt64 :=
  if curr < prev then none else some (curr - prev)

def cpuDeltas (prev curr : CpuSample) : Option (UInt64 × UInt64) := do
  let user ← delta prev.user curr.user
  let nice ← delta prev.nice curr.nice
  let system ← delta prev.system curr.system
  let idle ← delta prev.idle curr.idle
  let iowait ← delta prev.iowait curr.iowait
  let irq ← delta prev.irq curr.irq
  let softirq ← delta prev.softirq curr.softirq
  let steal ← delta prev.steal curr.steal
  return (user + nice + system + irq + softirq + steal, idle + iowait)

def cpuTotalDelta (prev curr : CpuSample) : Option UInt64 := do
  let (active, inactive) ← cpuDeltas prev curr
  let total := active + inactive
  if total = 0 then none else some total

/-- The exact quotient, where the source divides doubles. -/
def cpuUsage (prev curr : CpuSample) : Option ℚ := do
  let (active, inactive) ← cpuDeltas prev curr
  let total := active + inactive
  if total = 0 then none else some (active.toNat * 100 / total.toNat)

def Regressed (prev curr : CpuSample) : Prop :=
  curr.user < prev.user ∨ curr.nice < prev.nice ∨ curr.system < prev.system ∨
  curr.idle < prev.idle ∨ curr.iowait < prev.iowait ∨ curr.irq < prev.irq ∨
  curr.softirq < prev.softirq ∨ curr.steal < prev.steal

def increase (prev curr : UInt64) : Nat := curr.toNat - prev.toNat

def activeTicks (prev curr : CpuSample) : Nat :=
  increase prev.user curr.user + increase prev.nice curr.nice +
  increase prev.system curr.system + increase prev.irq curr.irq +
  increase prev.softirq curr.softirq + increase prev.steal curr.steal

def idleTicks (prev curr : CpuSample) : Nat :=
  increase prev.idle curr.idle + increase prev.iowait curr.iowait

def windowTicks (prev curr : CpuSample) : Nat :=
  activeTicks prev curr + idleTicks prev curr

theorem delta_eq_some {prev curr d : UInt64} (h : delta prev curr = some d) :
    ¬ curr < prev ∧ d.toNat = increase prev curr := by
  unfold delta at h
  split at h
  · simp at h
  · rename_i hlt
    cases Option.some.inj h
    exact ⟨hlt, UInt64.toNat_sub_of_le _ _ (UInt64.not_lt.mp hlt)⟩

theorem delta_isSome {prev curr : UInt64} (h : ¬ curr < prev) :
    delta prev curr = some (curr - prev) := by
  simp [delta, h]

theorem cpuDeltas_of_regressed {prev curr : CpuSample} (h : Regressed prev curr) :
    cpuDeltas prev curr = none := by
  by_contra hne
  obtain ⟨r, hr⟩ := Option.ne_none_iff_exists'.mp hne
  simp only [cpuDeltas, bind, Option.bind_eq_some_iff] at hr
  obtain ⟨_, h1, _, h2, _, h3, _, h4, _, h5, _, h6, _, h7, _, h8, -⟩ := hr
  rcases h with h | h | h | h | h | h | h | h
  · exact (delta_eq_some h1).1 h
  · exact (delta_eq_some h2).1 h
  · exact (delta_eq_some h3).1 h
  · exact (delta_eq_some h4).1 h
  · exact (delta_eq_some h5).1 h
  · exact (delta_eq_some h6).1 h
  · exact (delta_eq_some h7).1 h
  · exact (delta_eq_some h8).1 h

theorem cpuDeltas_of_not_regressed {prev curr : CpuSample} (h : ¬ Regressed prev curr) :
    ∃ active inactive, cpuDeltas prev curr = some (active, inactive) ∧
      active.toNat = activeTicks prev curr % 2 ^ 64 ∧
      inactive.toNat = idleTicks prev curr % 2 ^ 64 := by
  simp only [Regressed, not_or] at h
  obtain ⟨h1, h2, h3, h4, h5, h6, h7, h8⟩ := h
  refine ⟨_, _, by simp only [cpuDeltas, delta_isSome, h1, h2, h3, h4, h5, h6, h7, h8, bind,
    not_false_eq_true, Option.bind_some]; rfl, ?_, ?_⟩
  · simp only [UInt64.toNat_add, activeTicks, (delta_eq_some (delta_isSome h1)).2,
      (delta_eq_some (delta_isSome h2)).2, (delta_eq_some (delta_isSome h3)).2,
      (delta_eq_some (delta_isSome h6)).2, (delta_eq_some (delta_isSome h7)).2,
      (delta_eq_some (delta_isSome h8)).2]
    omega
  · simp only [UInt64.toNat_add, idleTicks, (delta_eq_some (delta_isSome h4)).2,
      (delta_eq_some (delta_isSome h5)).2]

theorem window_toNat {prev curr : CpuSample} {active inactive : UInt64}
    (ha : active.toNat = activeTicks prev curr % 2 ^ 64)
    (hi : inactive.toNat = idleTicks prev curr % 2 ^ 64) :
    (active + inactive).toNat = windowTicks prev curr % 2 ^ 64 := by
  rw [UInt64.toNat_add, ha, hi, windowTicks, ← Nat.add_mod]

theorem cpuTotalDelta_of_regressed {prev curr : CpuSample} (h : Regressed prev curr) :
    cpuTotalDelta prev curr = none := by
  simp [cpuTotalDelta, cpuDeltas_of_regressed h]

theorem cpuTotalDelta_eq_none_iff {prev curr : CpuSample} (h : ¬ Regressed prev curr) :
    cpuTotalDelta prev curr = none ↔ windowTicks prev curr % 2 ^ 64 = 0 := by
  obtain ⟨active, inactive, hd, ha, hi⟩ := cpuDeltas_of_not_regressed h
  rw [← window_toNat ha hi, show (0 : Nat) = (0 : UInt64).toNat from rfl, UInt64.toNat_inj]
  simp [cpuTotalDelta, hd]

theorem cpuTotalDelta_toNat {prev curr : CpuSample} {total : UInt64}
    (h : cpuTotalDelta prev curr = some total) :
    ¬ Regressed prev curr ∧ total.toNat = windowTicks prev curr % 2 ^ 64 ∧ total ≠ 0 := by
  have hr : ¬ Regressed prev curr := fun hr => by
    rw [cpuTotalDelta_of_regressed hr] at h
    simp at h
  obtain ⟨active, inactive, hd, ha, hi⟩ := cpuDeltas_of_not_regressed hr
  simp only [cpuTotalDelta, hd, bind, Option.bind_some] at h
  split at h
  · simp at h
  · rename_i hne
    cases Option.some.inj h
    exact ⟨hr, window_toNat ha hi, hne⟩

theorem cpuUsage_isSome (prev curr : CpuSample) :
    (cpuUsage prev curr).isSome = (cpuTotalDelta prev curr).isSome := by
  unfold cpuUsage cpuTotalDelta
  cases cpuDeltas prev curr with
  | none => rfl
  | some r =>
    obtain ⟨active, inactive⟩ := r
    by_cases h : active + inactive = 0 <;> simp [h]

theorem cpuUsage_eq {prev curr : CpuSample} {usage : ℚ} (h : cpuUsage prev curr = some usage) :
    usage = (activeTicks prev curr % 2 ^ 64 : Nat) * 100 /
      (windowTicks prev curr % 2 ^ 64 : Nat) := by
  have hr : ¬ Regressed prev curr := fun hr => by
    simp [cpuUsage, cpuDeltas_of_regressed hr] at h
  obtain ⟨active, inactive, hd, ha, hi⟩ := cpuDeltas_of_not_regressed hr
  simp only [cpuUsage, hd, bind, Option.bind_some] at h
  split at h
  · simp at h
  · rw [← ha, ← window_toNat ha hi]
    exact (Option.some.inj h).symm

/-- What both functions promise about a pair of samples: they succeed together,
exactly when no counter went back and the window is non-empty and fits its
64 bits, and what they then return is computed from the exact sums. -/
structure Measures (prev curr : CpuSample) : Prop where
  together : (cpuUsage prev curr).isSome = (cpuTotalDelta prev curr).isSome
  succeeds : (cpuTotalDelta prev curr).isSome ↔
    ¬ Regressed prev curr ∧ 0 < windowTicks prev curr ∧ windowTicks prev curr < 2 ^ 64
  total : ∀ t, cpuTotalDelta prev curr = some t → t.toNat = windowTicks prev curr
  usage : ∀ u, cpuUsage prev curr = some u →
    u = 100 * activeTicks prev curr / windowTicks prev curr ∧ 0 ≤ u ∧ u ≤ 100

theorem share_le_hundred {a w : Nat} (h : a ≤ w) : (100 * a / w : ℚ) ≤ 100 := by
  rcases Nat.eq_zero_or_pos w with rfl | hw
  · simp
  · rw [div_le_iff₀ (by exact_mod_cast hw)]
    have : (a : ℚ) ≤ w := by exact_mod_cast h
    linarith

theorem measures_of_fits {prev curr : CpuSample} (h : windowTicks prev curr < 2 ^ 64) :
    Measures prev curr where
  together := cpuUsage_isSome prev curr
  succeeds := by
    by_cases hr : Regressed prev curr
    · simp [cpuTotalDelta_of_regressed hr, hr]
    · rw [Option.isSome_iff_ne_none, ne_eq, cpuTotalDelta_eq_none_iff hr, Nat.mod_eq_of_lt h]
      simp only [hr, not_false_eq_true, true_and, h, and_true]
      omega
  total := fun t ht => by
    rw [(cpuTotalDelta_toNat ht).2.1, Nat.mod_eq_of_lt h]
  usage := fun u hu => by
    have hle : activeTicks prev curr ≤ windowTicks prev curr := Nat.le_add_right _ _
    have heq := cpuUsage_eq hu
    rw [Nat.mod_eq_of_lt h, Nat.mod_eq_of_lt (by omega), mul_comm] at heq
    subst heq
    exact ⟨rfl, by positivity, share_le_hundred hle⟩

theorem measures_of_none {prev curr : CpuSample} (hnone : cpuTotalDelta prev curr = none)
    (h : Regressed prev curr ∨ 2 ^ 64 ≤ windowTicks prev curr) : Measures prev curr where
  together := cpuUsage_isSome prev curr
  succeeds := by
    simp only [hnone, Option.isSome_none, Bool.false_eq_true, false_iff]
    rintro ⟨hr, -, hlt⟩
    exact h.elim hr fun hge => by omega
  total := by simp [hnone]
  usage := by
    have hu : cpuUsage prev curr = none := by
      rw [← Option.isNone_iff_eq_none, ← Option.not_isSome, cpuUsage_isSome, hnone]
      rfl
    simp [hu]

/-- Each delta is checked but their sum is not: from `2^64` on it wraps, and only
a sum that wraps to 0 is still rejected. -/
theorem measures_iff (prev curr : CpuSample) :
    Measures prev curr ↔
      Regressed prev curr ∨ windowTicks prev curr < 2 ^ 64 ∨ 2 ^ 64 ∣ windowTicks prev curr := by
  constructor
  · intro h
    by_contra hcon
    simp only [not_or, not_lt] at hcon
    obtain ⟨hr, hge, hdvd⟩ := hcon
    have hsome : (cpuTotalDelta prev curr).isSome := by
      rw [Option.isSome_iff_ne_none, ne_eq, cpuTotalDelta_eq_none_iff hr]
      exact fun h0 => hdvd (Nat.dvd_of_mod_eq_zero h0)
    have := (h.succeeds.mp hsome).2.2
    omega
  · rintro (hr | hlt | hdvd)
    · exact measures_of_none (cpuTotalDelta_of_regressed hr) (Or.inl hr)
    · exact measures_of_fits hlt
    · by_cases hr : Regressed prev curr
      · exact measures_of_none (cpuTotalDelta_of_regressed hr) (Or.inl hr)
      rcases Nat.lt_or_ge (windowTicks prev curr) (2 ^ 64) with hlt | hge
      · exact measures_of_fits hlt
      · refine measures_of_none ?_ (Or.inr hge)
        rw [cpuTotalDelta_eq_none_iff hr]
        exact Nat.mod_eq_zero_of_dvd hdvd

/-- Two lines of `/proc/stat` whose deltas sum to `2^64 + 1`: both functions
report a window of a single tick. -/
theorem wrapped_window :
    ∃ prev curr, cpuParseLine (ascii "cpu 0 0 0 0 0 0 0 0\n") = some prev ∧
      cpuParseLine (ascii "cpu 18446744073709551615 2 0 0 0 0 0 0\n") = some curr ∧
      cpuTotalDelta prev curr = some 1 ∧ cpuUsage prev curr = some 100 ∧
      ¬ Measures prev curr := by
  refine ⟨⟨0, 0, 0, 0, 0, 0, 0, 0⟩, ⟨18446744073709551615, 2, 0, 0, 0, 0, 0, 0⟩,
    by decide +kernel, by decide +kernel, by decide +kernel, by decide +kernel, fun h => ?_⟩
  have hw := (h.succeeds.mp (by decide +kernel)).2.2
  exact absurd hw (by decide +kernel)

end RookieTop.Cpu
