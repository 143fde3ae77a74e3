import RookieTop.CLib.Numeral
import RookieTop.Sys
import Mathlib.Algebra.Order.Field.Rat
import Mathlib.Tactic.Linarith

/-! The machine itself: its names and processors, how long it has been up, its load
and the hottest of its thermal zones. -/
namespace RookieTop.Host

open CLib Trace Sys

def hostNameMax : Nat := 64
def hostKernelMax : Nat := 64
def hostThermalTypeMax : Nat := 64
def thermalPathMax : Nat := 256
def thermalLineMax : Nat := 128

structure HostInfo where
  hostname : Bytes
  kernelRelease : Bytes
  thermalType : Bytes
  cores : Int
  uptimeSeconds : ℚ
  load1 : ℚ
  load5 : ℚ
  load15 : ℚ
  thermalC : ℚ
  thermalOk : Bool
  deriving DecidableEq

def HostInfo.zero : HostInfo := ⟨[], [], [], 0, 0, 0, 0, 0, 0, false⟩

section Parse

variable (env : Env)

def hostParseUptime (text : Bytes) : Option ℚ :=
  (env.scanDouble text).bind fun (uptime, _) => if uptime < 0 then none else some uptime

def hostParseLoadavg (text : Bytes) : Option (ℚ × ℚ × ℚ) := do
  let (load1, text) ← env.scanDouble text
  let (load5, text) ← env.scanDouble text
  let (load15, _) ← env.scanDouble text
  if load1 < 0 ∨ load5 < 0 ∨ load15 < 0 then none else some (load1, load5, load15)

end Parse

/-- What a buffer of `size` bytes holds behind `fgets` and the cut at the end of the line, and
whether that is a line with something in it. A failing read leaves behind the bytes it got in
front of the old text, and a line whose file does not close is not cut. -/
def firstLine (size : Nat) (old : Bytes) (stream : Stream) (closed : Bool) : Bytes × Bool :=
  match fgets size stream with
  | none =>
    let got := (takeLine (size - 1) stream.bytes).1
    (cstr (got ++ old.drop got.length), false)
  | some (line, _) =>
    if closed then
      let line := (cstr line).takeWhile fun b => b != 13 && b != 10
      (line, !line.isEmpty)
    else (cstr line, false)

def thermalPath (zone : Bytes) (file : String) : Bytes :=
  ascii "/sys/class/thermal/" ++ zone ++ ascii "/" ++ ascii file

def isZone (entry : Bytes) : Bool :=
  startsWith entry (ascii "thermal_zone") &&
    (decide ((thermalPath entry "temp").length < thermalPathMax) &&
      decide ((thermalPath entry "type").length < thermalPathMax))

def parseMillidegrees (line : Bytes) : Option Int :=
  let c := strtol line
  if c.range ∨ c.rest ≠ [] ∨ c.value < 0 ∨ 200000 < c.value then none else some c.value

/-- The exact temperature of a zone whose first line could be read, if it is above the hottest. -/
def hotter (hottest : ℚ) (line : Bytes × Bool) : Option ℚ :=
  if line.2 then
    (parseMillidegrees line.1).bind fun millidegrees =>
      let temperature : ℚ := millidegrees / 1000
      if temperature ≤ hottest then none else some temperature
  else none

section Read

variable (env : Env)

def scanFile {α : Type} (path : Path) (parse : Bytes → Option α) : Calls (Option α) := do
  match ← readFile env path with
  | none => return none
  | some (stream, closed) => return if closed then parse stream.bytes else none

/-- The buffer, which keeps the old text where the file can not be opened. -/
def readFirstLine (path : Path) (old : Bytes) (size : Nat) : Calls (Bytes × Bool) := do
  match ← readFile env path with
  | none => return (old, false)
  | some (stream, closed) => return firstLine size old stream closed

def thermalLoop : List Bytes → ℚ × Bytes → Calls (ℚ × Bytes)
  | [], hottest => pure hottest
  | zone :: zones, hottest =>
    if isZone zone then do
      match hotter hottest.1 (← readFirstLine env (.thermalTemp zone) [] thermalLineMax) with
      | none => thermalLoop zones hottest
      | some temperature =>
        let type ← readFirstLine env (.thermalType zone) (ascii "thermal") hostThermalTypeMax
        thermalLoop zones (temperature, type.1)
    else thermalLoop zones hottest

def readThermal : Calls (Option (ℚ × Bytes)) := do
  match ← Calls.call env.thermal with
  | none => return none
  | some dir =>
    let hottest ← thermalLoop env dir.names (-1, [])
    return if 0 ≤ hottest.1 then some hottest else none

def hostOf (hostname release : Bytes) (cores : Int) (uptime : ℚ) (loads : ℚ × ℚ × ℚ)
    (thermal : Option (ℚ × Bytes)) : HostInfo where
  hostname := (cstr hostname).take (hostNameMax - 1)
  kernelRelease := snprintf hostKernelMax (cstr release)
  thermalType := (thermal.map Prod.snd).getD []
  cores := cores
  uptimeSeconds := uptime
  load1 := loads.1
  load5 := loads.2.1
  load15 := loads.2.2
  thermalC := (thermal.map Prod.fst).getD 0
  thermalOk := thermal.isSome

def hostRead : Calls (Option HostInfo) := do
  match ← Calls.call env.hostname with
  | none => return none
  | some hostname =>
    match ← Calls.call env.uname with
    | none => return none
    | some release =>
      let cores ← Calls.call env.processors
      if cores < 1 then return none
      else
        match ← scanFile env .uptime (hostParseUptime env) with
        | none => return none
        | some uptime =>
          match ← scanFile env .loadavg (hostParseLoadavg env) with
          | none => return none
          | some loads => return some (hostOf hostname release cores uptime loads (← readThermal env))

end Read

structure Known (info : HostInfo) : Prop where
  cores : 1 ≤ info.cores
  uptime : 0 ≤ info.uptimeSeconds
  loads : 0 ≤ info.load1 ∧ 0 ≤ info.load5 ∧ 0 ≤ info.load15
  names : info.hostname.length < hostNameMax ∧ info.kernelRelease.length < hostKernelMax
  zone : info.thermalType.length < hostThermalTypeMax
  warm : info.thermalOk = true → 0 ≤ info.thermalC ∧ info.thermalC ≤ 200
  unread : info.thermalOk = false → info.thermalC = 0 ∧ info.thermalType = []

theorem firstLine_length (size : Nat) (old : Bytes) (stream : Stream) (closed : Bool) :
    (firstLine size old stream closed).1.length ≤ max (size - 1) old.length := by
  have hcstr (s : Bytes) : (cstr s).length ≤ s.length := (List.takeWhile_prefix _).length_le
  have hline := takeLine_length_le (size - 1) stream.bytes
  unfold firstLine
  cases hread : fgets size stream with
  | none =>
    have hold := hcstr ((takeLine (size - 1) stream.bytes).1 ++
      old.drop (takeLine (size - 1) stream.bytes).1.length)
    rw [List.length_append, List.length_drop] at hold
    dsimp only
    omega
  | some r =>
    obtain ⟨line, rest⟩ := r
    have hgot : line.length ≤ size - 1 := by
      unfold fgets at hread
      dsimp only at hread
      split_ifs at hread
      rw [← (Prod.mk.inj (Option.some.inj hread)).1]
      exact hline
    have hwhole := hcstr line
    have hcut := (List.takeWhile_prefix (l := cstr line) fun b => b != 13 && b != 10).length_le
    dsimp only
    split_ifs <;> dsimp only <;> omega

theorem hotter_bounds {hottest temperature : ℚ} {line : Bytes × Bool}
    (h : hotter hottest line = some temperature) : 0 ≤ temperature ∧ temperature ≤ 200 := by
  unfold hotter at h
  split_ifs at h
  obtain ⟨millidegrees, hparse, h⟩ := Option.bind_eq_some_iff.mp h
  dsimp only at h
  split_ifs at h
  unfold parseMillidegrees at hparse
  dsimp only at hparse
  split_ifs at hparse with hbad
  simp only [not_or, not_lt] at hbad
  obtain ⟨-, -, hlow, hhigh⟩ := hbad
  rw [← Option.some.inj h, ← Option.some.inj hparse]
  have hlow : (0 : ℚ) ≤ (strtol line.1).value := by exact_mod_cast hlow
  have hhigh : ((strtol line.1).value : ℚ) ≤ 200000 := by exact_mod_cast hhigh
  constructor <;> linarith

section Reading

variable {env : Env}

/-- What holds of every zone that is hotter than the one before, and at the start, holds of
the hottest. -/
theorem thermalLoop_keeps {P : ℚ × Bytes → Prop}
    (hzone : ∀ zone hottest line temperature time, hotter hottest line = some temperature →
      P (temperature, ((readFirstLine env (.thermalType zone) (ascii "thermal")
        hostThermalTypeMax).value time).1))
    (zones : List Bytes) {hottest : ℚ × Bytes} (h : P hottest) (n : Nat) :
    P ((thermalLoop env zones hottest).value n) := by
  induction zones generalizing hottest n with
  | nil => exact h
  | cons zone zones ih =>
    unfold thermalLoop
    split_ifs
    · simp only [Calls.value_bind]
      split
      · exact ih h _
      · rename_i temperature hhotter
        exact ih (hzone _ _ _ _ _ hhotter) _
    · exact ih h n

theorem readFirstLine_value (path : Path) (old : Bytes) (size n : Nat) :
    (readFirstLine env path old size).value n =
      if env.opens n path then
        firstLine size old (env.content n (n + 1) path) (env.closes (n + 2))
      else (old, false) := by
  unfold readFirstLine
  simp only [Calls.value_bind, readFile_value]
  split_ifs <;> rfl

theorem readThermal_some {P : ℚ × Bytes → Prop}
    (hzone : ∀ zone hottest line temperature time, hotter hottest line = some temperature →
      P (temperature, ((readFirstLine env (.thermalType zone) (ascii "thermal")
        hostThermalTypeMax).value time).1))
    {n : Nat} {hottest : ℚ × Bytes} (h : (readThermal env).value n = some hottest) : P hottest := by
  unfold readThermal at h
  simp only [Calls.value_bind, Calls.value_call, Calls.after_call] at h
  cases hdir : env.thermal n with
  | none => simp [hdir] at h
  | some dir =>
    simp only [hdir, Calls.value_bind, Calls.value_pure] at h
    obtain ⟨hpos, h⟩ := Option.ite_none_right_eq_some.mp h
    have hstart : (0 : ℚ) ≤ (-1, ([] : Bytes)).1 → P (-1, []) :=
      fun hneg => absurd hneg (by norm_num)
    have hkept := thermalLoop_keeps (P := fun hottest => 0 ≤ hottest.1 → P hottest)
      (fun zone hottest line temperature time hhotter _ =>
        hzone zone hottest line temperature time hhotter) dir.names hstart (n + 1)
    rw [← Option.some.inj h]
    exact hkept hpos

theorem scanFile_some {α : Type} {path : Path} {parse : Bytes → Option α} {n : Nat} {a : α}
    (h : (scanFile env path parse).value n = some a) : ∃ text, parse text = some a := by
  unfold scanFile at h
  simp only [Calls.value_bind, readFile_value] at h
  split_ifs at h
  · simp only [Calls.value_pure] at h
    exact ⟨_, (Option.ite_none_right_eq_some.mp h).2⟩
  · cases h

theorem hostRead_some {n : Nat} {info : HostInfo} (h : (hostRead env).value n = some info) :
    ∃ hostname release cores uptime loads time, env.hostname n = some hostname ∧
      env.uname (n + 1) = some release ∧ 1 ≤ cores ∧
      (∃ text, hostParseUptime env text = some uptime) ∧
      (∃ text, hostParseLoadavg env text = some loads) ∧
      info = hostOf hostname release cores uptime loads ((readThermal env).value time) ∧
      n < time ∧ (readThermal env).after time = (hostRead env).after n := by
  unfold hostRead at h ⊢
  simp only [Calls.value_bind, Calls.after_bind, Calls.value_call, Calls.after_call] at h ⊢
  cases hhostname : env.hostname n with
  | none => simp [hhostname] at h
  | some hostname =>
  simp only [hhostname, Calls.value_bind, Calls.after_bind, Calls.value_call, Calls.after_call] at h ⊢
  cases hrelease : env.uname (n + 1) with
  | none => simp [hrelease] at h
  | some release =>
  simp only [hrelease, Calls.value_bind, Calls.after_bind, Calls.after_call, Calls.value_ite,
    Calls.after_ite] at h ⊢
  split_ifs at h ⊢ with hcores
  · cases h
  cases huptime : (scanFile env .uptime (hostParseUptime env)).value (n + 1 + 1 + 1) with
  | none => simp [huptime] at h
  | some uptime =>
  simp only [huptime, Calls.value_bind, Calls.after_bind] at h ⊢
  split at h
  · cases h
  · rename_i loads hloads
    simp only [Calls.value_bind, Calls.after_bind, Calls.value_pure, Calls.after_pure,
      Option.some.injEq] at h ⊢
    have hscans := (Calls.le_after (scanFile env .uptime (hostParseUptime env)) (n + 1 + 1 + 1)).trans
      (Calls.le_after (scanFile env .loadavg (hostParseLoadavg env)) _)
    exact ⟨hostname, release, _, uptime, loads, _, rfl, rfl, not_lt.mp hcores,
      scanFile_some huptime, scanFile_some hloads, h.symm, by omega, rfl⟩

theorem hostParseUptime_nonneg {text : Bytes} {uptime : ℚ}
    (h : hostParseUptime env text = some uptime) : 0 ≤ uptime := by
  obtain ⟨scanned, -, h⟩ := Option.bind_eq_some_iff.mp h
  obtain ⟨hpos, h⟩ := Option.ite_none_left_eq_some.mp h
  rw [← Option.some.inj h]
  exact not_lt.mp hpos

theorem hostParseLoadavg_nonneg {text : Bytes} {loads : ℚ × ℚ × ℚ}
    (h : hostParseLoadavg env text = some loads) :
    0 ≤ loads.1 ∧ 0 ≤ loads.2.1 ∧ 0 ≤ loads.2.2 := by
  obtain ⟨first, -, h⟩ := Option.bind_eq_some_iff.mp h
  obtain ⟨second, -, h⟩ := Option.bind_eq_some_iff.mp h
  obtain ⟨third, -, h⟩ := Option.bind_eq_some_iff.mp h
  obtain ⟨hpos, h⟩ := Option.ite_none_left_eq_some.mp h
  simp only [not_or, not_lt] at hpos
  rw [← Option.some.inj h]
  exact hpos

theorem hostRead_known {n : Nat} {info : HostInfo} (h : (hostRead env).value n = some info) :
    Known info := by
  obtain ⟨hostname, release, cores, uptime, loads, time, -, -, hcores, ⟨uptimeText, huptime⟩,
    ⟨loadText, hloads⟩, rfl, -, -⟩ := hostRead_some h
  have hthermal := fun hottest => @readThermal_some env
    (fun hottest => (0 ≤ hottest.1 ∧ hottest.1 ≤ 200) ∧ hottest.2.length < hostThermalTypeMax)
    (fun zone hottest line temperature time hhotter => ⟨hotter_bounds hhotter, by
      rw [readFirstLine_value]
      split_ifs
      · exact lt_of_le_of_lt (firstLine_length _ _ _ _) (by decide)
      · change (ascii "thermal").length < hostThermalTypeMax
        decide⟩) time hottest
  refine ⟨hcores, hostParseUptime_nonneg huptime, hostParseLoadavg_nonneg hloads, ⟨?_, ?_⟩, ?_, ?_,
    ?_⟩
  · exact lt_of_le_of_lt (List.length_take_le _ _) (by decide)
  · exact lt_of_le_of_lt (List.length_take_le _ _) (by decide)
  · unfold hostOf
    cases hread : (readThermal env).value time with
    | none => exact Nat.zero_lt_succ _
    | some hottest => exact (hthermal hottest hread).2
  · unfold hostOf
    cases hread : (readThermal env).value time with
    | none => exact fun hok => absurd hok Bool.false_ne_true
    | some hottest => exact fun _ => (hthermal hottest hread).1
  · unfold hostOf
    cases (readThermal env).value time with
    | none => exact fun _ => ⟨rfl, rfl⟩
    | some hottest => exact fun hbad => absurd hbad (Bool.true_eq_false_eq_False)

end Reading

end RookieTop.Host
