import RookieTop.Lives
import RookieTop.Views

/-! The temperature of an overview: that of the hottest zone, of those that could be read while the
zones were gone through. -/
namespace RookieTop.Thermal

open CLib Trace Sys Cpu Memory Disk Network Host ProcessCpu CollectOverview App RunInteractive
  Passes Views

def temperatureOf (line : Bytes × Bool) : Option ℚ :=
  if line.2 then (parseMillidegrees line.1).map fun millidegrees : Int => (millidegrees : ℚ) / 1000
  else none

theorem hotter_eq (hottest : ℚ) (line : Bytes × Bool) :
    hotter hottest line = (temperatureOf line).filter fun temperature => hottest < temperature := by
  unfold hotter temperatureOf
  split_ifs
  · cases parseMillidegrees line.1 with
    | none => rfl
    | some millidegrees =>
      simp only [Option.bind_some, Option.map_some, Option.filter_some, decide_eq_true_eq]
      by_cases hcold : (millidegrees : ℚ) / 1000 ≤ hottest
      · rw [if_pos hcold, if_neg (not_lt.mpr hcold)]
      · rw [if_neg hcold, if_pos (not_le.mp hcold)]
  · rfl

variable (env : Env)

/-- What the `temp` file of a zone gives from time `n` on. -/
def temperature (zone : Bytes) (n : Nat) : Option ℚ :=
  temperatureOf ((readFirstLine env (.thermalTemp zone) [] thermalLineMax).value n)

/-- What its `type` file gives behind that. -/
def typeName (zone : Bytes) (n : Nat) : Bytes :=
  ((readFirstLine env (.thermalType zone) (ascii "thermal") hostThermalTypeMax).value
    ((readFirstLine env (.thermalTemp zone) [] thermalLineMax).after n)).1

/-- The zones among the entries of the directory, each with the time at which it was read. -/
structure Scan (names : List Bytes) (start stop : Nat) (visits : List (Bytes × Nat)) : Prop where
  zones : visits.map Prod.fst = names.filter isZone
  times : visits.Pairwise fun first second => first.2 < second.2
  within : ∀ visit ∈ visits, start ≤ visit.2 ∧ visit.2 < stop

/-- The first of the hottest zones. -/
structure Hottest (visits : List (Bytes × Nat)) (hottest : ℚ × Bytes) : Prop where
  found : ∃ before zone time after, visits = before ++ (zone, time) :: after ∧
    temperature env zone time = some hottest.1 ∧ typeName env zone time = hottest.2 ∧
    (∀ visit ∈ before, ∀ t ∈ temperature env visit.1 visit.2, t < hottest.1) ∧
    ∀ visit ∈ after, ∀ t ∈ temperature env visit.1 visit.2, t ≤ hottest.1

/-- What a record says of the temperature, where the zones are read between these times. -/
inductive Measured (info : HostInfo) (start stop : Nat) : Prop
  | closed (no : env.thermal start = none) (unread : info.thermalOk = false)
  | cold (dir : Directory) (visits : List (Bytes × Nat)) (opened : env.thermal start = some dir)
      (scan : Scan dir.names (start + 1) stop visits) (unread : info.thermalOk = false)
      (silent : ∀ visit ∈ visits, temperature env visit.1 visit.2 = none)
  | warm (dir : Directory) (visits : List (Bytes × Nat)) (opened : env.thermal start = some dir)
      (scan : Scan dir.names (start + 1) stop visits) (read : info.thermalOk = true)
      (hottest : Hottest env visits (info.thermalC, info.thermalType))

variable {env}

theorem Scan.until {names : List Bytes} {start stop stop' : Nat} {visits : List (Bytes × Nat)}
    (h : Scan names start stop visits) (hstop : stop ≤ stop') : Scan names start stop' visits where
  zones := h.zones
  times := h.times
  within := fun visit hvisit =>
    ⟨(h.within visit hvisit).1, (h.within visit hvisit).2.trans_le hstop⟩

theorem Measured.until {info : HostInfo} {start stop stop' : Nat}
    (h : Measured env info start stop) (hstop : stop ≤ stop') : Measured env info start stop' := by
  cases h with
  | closed no unread => exact .closed no unread
  | cold dir visits opened scan unread silent =>
    exact .cold dir visits opened (scan.until hstop) unread silent
  | warm dir visits opened scan read hottest =>
    exact .warm dir visits opened (scan.until hstop) read hottest

theorem Scan.cons {names : List Bytes} {zone : Bytes} {start next stop : Nat}
    {visits : List (Bytes × Nat)} (h : Scan names next stop visits) (hzone : isZone zone = true)
    (hnext : start < next) (hstop : next ≤ stop) :
    Scan (zone :: names) start stop ((zone, start) :: visits) where
  zones := by rw [List.map_cons, h.zones, List.filter_cons_of_pos hzone]
  times := List.pairwise_cons.mpr
    ⟨fun visit hvisit => hnext.trans_le (h.within visit hvisit).1, h.times⟩
  within := by
    intro visit hvisit
    rcases List.mem_cons.mp hvisit with rfl | hlater
    · exact ⟨le_refl _, hnext.trans_le hstop⟩
    · exact ⟨hnext.le.trans (h.within visit hlater).1, (h.within visit hlater).2⟩

theorem Hottest.cons {visits : List (Bytes × Nat)} {hottest : ℚ × Bytes}
    (h : Hottest env visits hottest) {visit : Bytes × Nat}
    (hcold : ∀ t ∈ temperature env visit.1 visit.2, t < hottest.1) :
    Hottest env (visit :: visits) hottest := by
  obtain ⟨before, zone, time, after, rfl, htemperature, htype, hbefore, hafter⟩ := h.found
  exact ⟨⟨visit :: before, zone, time, after, rfl, htemperature, htype,
    List.forall_mem_cons.mpr ⟨hcold, hbefore⟩, hafter⟩⟩

theorem readFirstLine_after_lt (path : Path) (old : Bytes) (size n : Nat) :
    n < (readFirstLine env path old size).after n := by
  unfold readFirstLine
  simp only [Calls.after_bind, readFile_after]
  apply lt_of_lt_of_le _ (Calls.le_after _ _)
  split_ifs <;> omega

/-- A zone that is not hotter leaves the hottest so far, any other takes its place. -/
theorem thermalLoop_zone {zone : Bytes} (hzone : isZone zone = true) (names : List Bytes)
    (hottest : ℚ × Bytes) (n : Nat) :
    ∃ next hottest', n < next ∧
      (thermalLoop env (zone :: names) hottest).value n =
        (thermalLoop env names hottest').value next ∧
      (thermalLoop env (zone :: names) hottest).after n =
        (thermalLoop env names hottest').after next ∧
      (hottest' = hottest ∧ (∀ t ∈ temperature env zone n, t ≤ hottest.1) ∨
        hottest.1 < hottest'.1 ∧ temperature env zone n = some hottest'.1 ∧
          typeName env zone n = hottest'.2) := by
  have hnext := @readFirstLine_after_lt env (.thermalTemp zone) [] thermalLineMax n
  rw [thermalLoop, if_pos hzone]
  simp only [Calls.value_bind, Calls.after_bind]
  generalize hline : (readFirstLine env (.thermalTemp zone) [] thermalLineMax).value n = line
  generalize hafter : (readFirstLine env (.thermalTemp zone) [] thermalLineMax).after n = next
    at hnext
  have htemperature : temperature env zone n = temperatureOf line := by
    rw [temperature, hline]
  cases hhotter : hotter hottest.1 line with
  | none =>
    refine ⟨next, hottest, hnext, rfl, rfl, Or.inl ⟨rfl, fun t ht => ?_⟩⟩
    rw [htemperature] at ht
    rw [hotter_eq, ht, Option.filter_some] at hhotter
    simpa using hhotter
  | some hot =>
    rw [hotter_eq, Option.filter_eq_some_iff, decide_eq_true_eq] at hhotter
    have htype : typeName env zone n = ((readFirstLine env (.thermalType zone) (ascii "thermal")
        hostThermalTypeMax).value next).1 := by rw [typeName, hafter]
    have hlater := @readFirstLine_after_lt env (.thermalType zone) (ascii "thermal")
      hostThermalTypeMax next
    simp only [Calls.value_bind, Calls.after_bind]
    exact ⟨_, (hot, typeName env zone n), hnext.trans hlater, by rw [htype], by rw [htype],
      Or.inr ⟨hhotter.2, htemperature.trans hhotter.1, rfl⟩⟩

/-- From some hottest so far, the loop keeps it, or comes to the first of those that are hotter. -/
theorem thermalLoop_scan (names : List Bytes) (hottest : ℚ × Bytes) (n : Nat) :
    ∃ visits, Scan names n ((thermalLoop env names hottest).after n) visits ∧
      ((thermalLoop env names hottest).value n = hottest ∧
          (∀ visit ∈ visits, ∀ t ∈ temperature env visit.1 visit.2, t ≤ hottest.1) ∨
        hottest.1 < ((thermalLoop env names hottest).value n).1 ∧
          Hottest env visits ((thermalLoop env names hottest).value n)) := by
  induction names generalizing hottest n with
  | nil => exact ⟨[], ⟨rfl, List.Pairwise.nil, by simp⟩, Or.inl ⟨rfl, by simp⟩⟩
  | cons zone names ih =>
    by_cases hzone : isZone zone = true
    · obtain ⟨next, hottest', hnext, hvalue, hafter, hstep⟩ :=
        @thermalLoop_zone env _ hzone names hottest n
      rw [hvalue, hafter]
      obtain ⟨visits, hscan, hcase⟩ := ih hottest' next
      refine ⟨_, hscan.cons hzone hnext (Calls.le_after _ _), ?_⟩
      rcases hstep with ⟨rfl, hcold⟩ | ⟨hlt, hread, htype⟩
      · rcases hcase with ⟨hkept, hall⟩ | ⟨hlt, hhottest⟩
        · exact Or.inl ⟨hkept, List.forall_mem_cons.mpr ⟨hcold, hall⟩⟩
        · exact Or.inr ⟨hlt, hhottest.cons fun t ht => (hcold t ht).trans_lt hlt⟩
      · right
        rcases hcase with ⟨hkept, hall⟩ | ⟨hhotter, hhottest⟩
        · rw [hkept]
          exact ⟨hlt, ⟨[], zone, n, visits, rfl, hread, htype, by simp, hall⟩⟩
        · refine ⟨hlt.trans hhotter, hhottest.cons fun t ht => ?_⟩
          rw [hread] at ht
          exact (Option.some.inj ht).symm.trans_lt hhotter
    · obtain ⟨visits, hscan, hcase⟩ := ih hottest n
      rw [thermalLoop, if_neg hzone]
      refine ⟨visits, ⟨?_, hscan.times, hscan.within⟩, hcase⟩
      rw [hscan.zones, List.filter_cons_of_neg hzone]

theorem temperatureOf_nonneg {line : Bytes × Bool} {t : ℚ} (h : temperatureOf line = some t) :
    0 ≤ t := by
  have hhotter : hotter (min (t - 1) 0) line = some t := by
    rw [hotter_eq, h, Option.filter_some, if_pos]
    exact decide_eq_true ((min_le_left _ _).trans_lt (by linarith))
  exact (hotter_bounds hhotter).1

theorem hostRead_measured {n : Nat} {info : HostInfo} (h : (hostRead env).value n = some info) :
    ∃ time, n < time ∧ Measured env info time ((hostRead env).after n) := by
  obtain ⟨hostname, release, cores, uptime, loads, time, -, -, -, -, -, rfl, hlater, hstop⟩ :=
    hostRead_some h
  refine ⟨time, hlater, ?_⟩
  rw [← hstop]
  unfold readThermal
  simp only [Calls.value_bind, Calls.after_bind, Calls.value_call, Calls.after_call]
  cases hdir : env.thermal time with
  | none => exact .closed hdir rfl
  | some dir =>
    obtain ⟨visits, hscan, hcase⟩ := @thermalLoop_scan env dir.names (-1, []) (time + 1)
    simp only [Calls.value_bind, Calls.after_bind, Calls.value_pure, Calls.after_pure]
    generalize (thermalLoop env dir.names (-1, [])).value (time + 1) = hottest at hcase
    rcases hcase with ⟨rfl, hall⟩ | ⟨-, hhottest⟩
    · have hneg : ¬ (0 : ℚ) ≤ -1 := by norm_num
      rw [if_neg hneg]
      refine .cold dir visits hdir hscan rfl fun visit hvisit => ?_
      rw [Option.eq_none_iff_forall_not_mem]
      intro t ht
      have hlow : t ≤ -1 := hall visit hvisit t ht
      have hpos := temperatureOf_nonneg ht
      linarith
    · obtain ⟨before, zone, read, after, -, htemperature, -⟩ := hhottest.found
      rw [if_pos (temperatureOf_nonneg htemperature)]
      exact .warm dir visits hdir hscan rfl hhottest

theorem finishOverview_host {host : Option HostInfo} {memory : MemorySample} {disk : DiskSample}
    {cpuPrev cpuCurr : CpuSample} {first : Option (NetworkSample × Timespec)}
    {previous : Option (List ProcessCpuCounter)} {n : Nat} {view : Overview}
    (h : (finishOverview env host memory disk cpuPrev cpuCurr first previous).value n = some view) :
    view.hostOk = host.isSome ∧ view.host = host.getD HostInfo.zero := by
  unfold finishOverview at h
  simp only [Calls.value_bind] at h
  split at h
  · simp only [Calls.value_bind, Calls.value_pure, Option.some.injEq] at h
    subst h
    exact ⟨rfl, rfl⟩
  · cases h

theorem collectOverview_host {n : Nat} {view : Overview}
    (h : (collectOverview env).value n = some view) :
    view.hostOk = ((hostRead env).value n).isSome ∧
      view.host = ((hostRead env).value n).getD HostInfo.zero := by
  unfold collectOverview at h
  simp only [Calls.value_bind] at h
  split at h
  · cases h
  simp only [Calls.value_bind] at h
  split at h
  · cases h
  simp only [Calls.value_bind] at h
  split at h
  · cases h
  simp only [Calls.value_bind, Calls.value_ite] at h
  split_ifs at h
  · split at h
    · cases h
    · exact finishOverview_host h
  · cases h

/-- The host is read first, so its reading is over when the pass is. -/
theorem hostRead_before {n : Nat} {pass : Pass} (hpass : passAt env n = some pass)
    (hscreen : (runInteractive env n).state.screen = .overview) :
    (hostRead env).after ((runInteractive env n).now + 1) ≤ (runInteractive env (n + 1)).now := by
  obtain ⟨-, -, -, hnow⟩ := passAt_some env hpass
  have hcollect : (hostRead env).after ((runInteractive env n).now + 1) ≤
      (collectOverview env).after ((runInteractive env n).now + 1) := by
    unfold collectOverview
    rw [Calls.after_bind]
    exact Calls.le_after _ _
  rw [hnow]
  unfold loopPass screenPass
  rw [Calls.after_bind, Calls.after_call, hscreen]
  dsimp only
  unfold overviewPass refreshOverview
  simp only [Calls.after_bind]
  exact hcollect.trans ((Calls.le_after _ _).trans (Calls.le_after _ _))

/-- Every overview shows the temperature of the hottest zone, of the first one where zones are
equally hot, and none where no zone could be read. -/
theorem temperature_shown (env : Env) (n : Nat) (view : Overview) (h : taken env n = some view)
    (hok : view.hostOk = true) :
    ∃ start, (runInteractive env n).now + 1 < start ∧
      Measured env view.host start (runInteractive env (n + 1)).now := by
  unfold taken at h
  split_ifs at h with hpass
  obtain ⟨hscreen, hpass⟩ := hpass
  obtain ⟨pass, hpass⟩ := Option.isSome_iff_exists.mp hpass
  obtain ⟨hread, hhost⟩ := collectOverview_host h
  rw [hread] at hok
  obtain ⟨info, hinfo⟩ := Option.isSome_iff_exists.mp hok
  obtain ⟨start, hstart, hmeasured⟩ := hostRead_measured hinfo
  rw [hhost, hinfo, Option.getD_some]
  exact ⟨start, hstart, hmeasured.until (hostRead_before hpass hscreen)⟩

/-- Two of three zones are equally hot. -/
def warmed : Env :=
  { Lives.attended [] [] with
    content := fun opened n path =>
      match path with
      | .uptime => ⟨ascii "100 400\n", false⟩
      | .loadavg => ⟨ascii "1 1 1 1/90 7\n", false⟩
      | .thermalTemp zone =>
        ⟨ascii (if zone = ascii "thermal_zone0" then "45000\n" else "61500\n"), false⟩
      | .thermalType zone =>
        ⟨ascii (if zone = ascii "thermal_zone1" then "x86_pkg_temp\n" else "acpitz\n"), false⟩
      | path => (Lives.attended [] []).content opened n path
    thermal := fun _ => some ⟨[ascii "thermal_zone0", ascii "cooling_device0",
      ascii "thermal_zone1", ascii "thermal_zone2"], false, true⟩
    scanDouble := fun text => (numeral? text).map fun number => (number.value, number.rest)
    hostname := fun _ => some (ascii "box")
    uname := fun _ => some (ascii "6.1.0") }

theorem temperature_shown_warmed :
    ∃ view, taken warmed 0 = some view ∧
      (view.host.thermalC, view.host.thermalType) = (123 / 2, ascii "x86_pkg_temp") ∧
      ∃ start, (runInteractive warmed 0).now + 1 < start ∧
        Measured warmed view.host start (runInteractive warmed 1).now := by
  have hwarm : (taken warmed 0).map (fun view =>
      (view.hostOk, view.host.thermalC, view.host.thermalType)) =
      some (true, 123 / 2, ascii "x86_pkg_temp") := by decide +kernel
  obtain ⟨view, hview, hhost⟩ := Option.map_eq_some_iff.mp hwarm
  obtain ⟨hok, hzone⟩ := Prod.mk.inj hhost
  exact ⟨view, hview, hzone, temperature_shown warmed 0 view hview hok⟩

end RookieTop.Thermal
