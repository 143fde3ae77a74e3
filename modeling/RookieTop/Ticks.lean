import RookieTop.Cpu
import RookieTop.Kernel
import Mathlib.Algebra.BigOperators.Group.Finset.Basic

/-! CPU time as the kernel accounts for it: ticks of the machine in `/proc/stat`, and
ticks of each process in its own stat file. -/
namespace RookieTop.Ticks

open CLib Trace Sys ProcDir Cpu ProcessCpu Kernel

open scoped BigOperators

/-- A machine whose processes never get more ticks than the machine has. -/
structure Run where
  machine : Machine
  counters : Nat → CpuSample
  guests : Nat → UInt64 × UInt64
  more : Nat → Bytes
  names : Nat → List Bytes
  names_once : ∀ t, ((names t).filterMap parsePid).Nodup
  pid_unique : ∀ {a b p q inst}, machine.tasks.holder a p = some inst →
    machine.tasks.holder b q = some inst → p = q
  ticks_mono : ∀ inst, Monotone fun t => (machine.task t inst).ticks
  counters_mono : ∀ {a b}, a ≤ b → ¬ Regressed (counters a) (counters b)
  conserved : ∀ (insts : Finset Nat) {a b}, a ≤ b →
    ∑ inst ∈ insts, ((machine.task b inst).ticks - (machine.task a inst).ticks) ≤
      windowTicks (counters a) (counters b)

def cpuFields (c : CpuSample) (guests : UInt64 × UInt64) : List (Bytes × UInt64) :=
  [([32, 32], c.user), ([32], c.nice), ([32], c.system), ([32], c.idle), ([32], c.iowait),
    ([32], c.irq), ([32], c.softirq), ([32], c.steal), ([32], guests.1), ([32], guests.2)]

def cpuLine (c : CpuSample) (guests : UInt64 × UInt64) : Bytes :=
  ascii "cpu" ++ renderFields (cpuFields c guests)

theorem cpuFields_spaced (c : CpuSample) (guests : UInt64 × UInt64) :
    Spaced (cpuFields c guests) := by
  have hspace : isspace 32 = true := rfl
  constructor <;> simp [cpuFields, hspace]

theorem cpuParseLine_cpuLine (c : CpuSample) (guests : UInt64 × UInt64) :
    cpuParseLine (cpuLine c guests ++ [10]) = some c := by
  have hfields := @sscanf_renderFields (cpuFields c guests) 8 [10] (cpuFields_spaced c guests)
    (stops_cons.mpr rfl) (Or.inl (by simp [cpuFields]))
  have hscan : sscanf cpuFormat (cpuLine c guests ++ [10]) =
      sscanf (u64Fields 8) (renderFields (cpuFields c guests) ++ [10]) := rfl
  unfold cpuParseLine
  rw [hscan, hfields]
  rfl

theorem renderFields_clean {fields : List (Bytes × UInt64)}
    (hblank : ∀ f ∈ fields, ∀ b ∈ f.1, b = 32) {b : UInt8} (hb : b ∈ renderFields fields) :
    b ≠ 10 ∧ b ≠ 0 := by
  induction fields with
  | nil => simp [renderFields] at hb
  | cons f fields ih =>
    simp only [renderFields, List.mem_append] at hb
    rcases hb with (hb | hb) | hb
    · rw [hblank f (by simp) b hb]
      decide
    · have hdigit := isdigit_of_mem_decimal hb
      constructor <;> rintro rfl <;> exact absurd hdigit (by decide)
    · exact ih (fun g hg => hblank g (by simp [hg])) hb

theorem renderFields_length {fields : List (Bytes × UInt64)}
    (hblank : ∀ f ∈ fields, f.1.length ≤ 2) :
    (renderFields fields).length ≤ 22 * fields.length := by
  induction fields with
  | nil => simp [renderFields]
  | cons f fields ih =>
    have hfirst := hblank f (by simp)
    have hdigits := StatusText.StatusField.decimal_length f.2
    have hrest := ih fun g hg => hblank g (by simp [hg])
    simp only [renderFields, List.length_append, List.length_cons]
    omega

theorem cpuLine_line (c : CpuSample) (guests : UInt64 × UInt64) :
    10 ∉ cpuLine c guests ∧ 0 ∉ cpuLine c guests ∧ (cpuLine c guests).length + 1 < cpuLineMax := by
  have hclean : ∀ b ∈ renderFields (cpuFields c guests), b ≠ 10 ∧ b ≠ 0 := fun b hb =>
    renderFields_clean (by simp [cpuFields]) hb
  have hlength := @renderFields_length (cpuFields c guests) (by simp [cpuFields])
  have hten : 10 ∉ renderFields (cpuFields c guests) := fun h => (hclean 10 h).1 rfl
  have hnul : 0 ∉ renderFields (cpuFields c guests) := fun h => (hclean 0 h).2 rfl
  refine ⟨by simp [cpuLine, ascii, hten], by simp [cpuLine, ascii, hnul], ?_⟩
  have hten : (cpuFields c guests).length = 10 := rfl
  have hkey : (ascii "cpu").length = 3 := rfl
  rw [cpuLine, List.length_append, hkey]
  unfold cpuLineMax
  omega

namespace Run

variable (k : Run) (base : Env)

def env : Env :=
  k.machine.env
    { base with
      content := fun opened n path =>
        match path with
        | .stat =>
          if (base.content opened n .stat).error then ⟨[], true⟩
          else ⟨cpuLine (k.counters n) (k.guests n) ++ 10 :: k.more n, false⟩
        | path => base.content opened n path
      directory := fun n => (base.directory n).map fun dir => { dir with names := k.names n } }

def gain (inst a b : Nat) : Nat := (k.machine.task b inst).ticks - (k.machine.task a inst).ticks

def window (a b : Nat) : Nat := windowTicks (k.counters a) (k.counters b)

theorem gain_mono {inst a a' b b' : Nat} (ha : a ≤ a') (hb : b' ≤ b) :
    k.gain inst a' b' ≤ k.gain inst a b := by
  have hstart := k.ticks_mono inst ha
  have hstop := k.ticks_mono inst hb
  dsimp only at hstart hstop
  unfold gain
  omega

theorem directory_names {n : Nat} {dir : Directory} (h : (k.env base).directory n = some dir) :
    dir.names = k.names n := by
  have h : (base.directory n).map (fun dir => { dir with names := k.names n }) = some dir := h
  obtain ⟨dir', -, rfl⟩ := Option.map_eq_some_iff.mp h
  rfl

theorem cpuRead_some {n : Nat} {sample : CpuSample}
    (h : (cpuRead (k.env base)).value n = some sample) : sample = k.counters (n + 1) := by
  obtain ⟨hten, hnul, hlength⟩ := cpuLine_line (k.counters (n + 1)) (k.guests (n + 1))
  have hcontent : (k.env base).content n (n + 1) .stat =
      if (base.content n (n + 1) .stat).error then ⟨[], true⟩
      else ⟨cpuLine (k.counters (n + 1)) (k.guests (n + 1)) ++ 10 :: k.more (n + 1), false⟩ := rfl
  have hcstr : cstr (cpuLine (k.counters (n + 1)) (k.guests (n + 1)) ++ [10]) =
      cpuLine (k.counters (n + 1)) (k.guests (n + 1)) ++ [10] := cstr_eq_self (by simp [hnul])
  unfold cpuRead at h
  simp only [Calls.value_bind, readLine_value, hcontent] at h
  split_ifs at h
  · rw [fgets_nil] at h
    cases h
  · rw [fgets_newline hten hlength, Option.map_some, hcstr] at h
    have h : cpuParseLine _ = some sample := h
    rw [cpuParseLine_cpuLine] at h
    exact (Option.some.inj h).symm
  · cases h

end Run

theorem stat_ticks {t : Task} (h : t.StatReadable) (pid : Int) :
    (t.stat pid).ticks.toNat = t.ticks := by
  have hlt := h.2.2
  unfold Task.ticks at hlt ⊢
  unfold Task.stat
  rw [UInt64.toNat_add, Nat.mod_eq_of_lt hlt]

end RookieTop.Ticks
