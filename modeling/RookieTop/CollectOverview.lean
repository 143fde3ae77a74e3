import RookieTop.Cpu
import RookieTop.DiagnosisBuild
import RookieTop.Disk
import RookieTop.Host
import RookieTop.Memory
import RookieTop.Network
import RookieTop.Process
import RookieTop.ProcessCpu

/-! The overview: one sample of the whole machine, the badge that sums it up and
the explanation next to it. -/
namespace RookieTop.CollectOverview

open CLib Trace Sys Host Cpu Disk Memory Network Process ProcessCpu DiagnosisBuild

def topProcessCount : Nat := 8

structure Overview where
  host : HostInfo
  memory : MemorySample
  disk : DiskSample
  memoryTop : List ProcessInfo
  cpuTop : List ProcessCpuInfo
  cpuPercent : ℚ
  memoryPercent : ℚ
  diskPercent : ℚ
  rxPerSec : ℚ
  txPerSec : ℚ
  memoryUsedKib : UInt64
  swapUsedKib : UInt64
  diskUsedBytes : UInt64
  memoryProcessTotal : Nat
  cpuProcessTotal : Nat
  hostOk : Bool
  networkOk : Bool
  memoryProcessOk : Bool
  cpuProcessOk : Bool

def Overview.zero : Overview where
  host := HostInfo.zero
  memory := ⟨0, 0, 0, 0⟩
  disk := ⟨0, 0⟩
  memoryTop := []
  cpuTop := []
  cpuPercent := 0
  memoryPercent := 0
  diskPercent := 0
  rxPerSec := 0
  txPerSec := 0
  memoryUsedKib := 0
  swapUsedKib := 0
  diskUsedBytes := 0
  memoryProcessTotal := 0
  cpuProcessTotal := 0
  hostOk := false
  networkOk := false
  memoryProcessOk := false
  cpuProcessOk := false

inductive OverallStatus where
  | healthy
  | attention
  | critical
  deriving DecidableEq, Repr

/-- The exact quotient, where the source divides doubles. -/
def loadRatio (view : Overview) : ℚ :=
  if !view.hostOk ∨ view.host.cores < 1 then 0 else view.host.load1 / view.host.cores

def overallStatus (view : Overview) : OverallStatus :=
  if 95 ≤ view.diskPercent then .critical
  else if 90 ≤ view.cpuPercent ∨ 90 ≤ view.memoryPercent ∨ 85 ≤ view.diskPercent ∨
      5 / 4 ≤ loadRatio view ∨ (view.hostOk ∧ view.host.thermalOk ∧ 90 ≤ view.host.thermalC) then
    .attention
  else .healthy

def viewInput (view : Overview) : DiagnosisInput :=
  let cpu := if view.cpuProcessOk then view.cpuTop.head? else none
  let memory := if view.memoryProcessOk then view.memoryTop.head? else none
  { cpuPercent := view.cpuPercent
    memoryPercent := view.memoryPercent
    diskPercent := view.diskPercent
    loadRatio := loadRatio view
    memoryAvailableKib := view.memory.availableKib
    diskAvailableBytes := view.disk.availableBytes
    topCpuName := cpu.map ProcessCpuInfo.name
    topCpuPercent := (cpu.map ProcessCpuInfo.cpuPercent).getD 0
    topMemoryName := memory.map ProcessInfo.name
    topMemoryKib := (memory.map ProcessInfo.rssKib).getD 0 }

def buildViewDiagnosis (view : Overview) : Diagnosis := diagnosisBuild (viewInput view)

/-! The badge against the explanation. -/

def Overview.Hot (view : Overview) : Prop :=
  view.hostOk = true ∧ view.host.thermalOk = true ∧ 90 ≤ view.host.thermalC

/-- Some measure has reached the threshold that both cascades test, short of a full disk. -/
def Overview.Strained (view : Overview) : Prop :=
  90 ≤ view.cpuPercent ∨ 90 ≤ view.memoryPercent ∨ 5 / 4 ≤ loadRatio view

structure Agrees (view : Overview) : Prop where
  healthy : overallStatus view = .healthy ↔ (buildViewDiagnosis view).focus = .healthy
  critical : overallStatus view = .critical → (buildViewDiagnosis view).focus = .disk

theorem overallStatus_eq_critical_iff (view : Overview) :
    overallStatus view = .critical ↔ 95 ≤ view.diskPercent := by
  unfold overallStatus
  split_ifs with hdisk <;> simp [hdisk]

theorem overallStatus_eq_healthy_iff (view : Overview) :
    overallStatus view = .healthy ↔ view.diskPercent < 85 ∧ ¬ view.Strained ∧ ¬ view.Hot := by
  unfold overallStatus
  split_ifs with hdisk hattention
  · simp only [false_iff, not_and]
    intro hlow
    linarith
  · simp only [false_iff, Overview.Strained, Overview.Hot]
    grind
  · simp only [true_iff, Overview.Strained, Overview.Hot]
    grind

theorem viewFocus_eq_healthy_iff (view : Overview) :
    (buildViewDiagnosis view).focus = .healthy ↔ view.diskPercent < 95 ∧ ¬ view.Strained := by
  rw [buildViewDiagnosis, focus_eq_healthy_iff]
  simp only [viewInput, Overview.Strained, not_or, not_le]
  tauto

/-- The explanation knows neither the disk's first threshold nor the temperature,
so it calls healthy what only these two make worth attention. -/
theorem agrees_iff (view : Overview) :
    Agrees view ↔
      95 ≤ view.diskPercent ∨ view.Strained ∨ (view.diskPercent < 85 ∧ ¬ view.Hot) := by
  constructor
  · intro h
    have hiff := h.healthy
    rw [overallStatus_eq_healthy_iff, viewFocus_eq_healthy_iff] at hiff
    by_contra hcon
    simp only [not_or, not_le] at hcon
    obtain ⟨hdisk, hstrained, hneither⟩ := hcon
    have hboth := hiff.mpr ⟨hdisk, hstrained⟩
    exact hneither ⟨hboth.1, hboth.2.2⟩
  · intro h
    constructor
    · rw [overallStatus_eq_healthy_iff, viewFocus_eq_healthy_iff]
      constructor
      · rintro ⟨hdisk, hstrained, -⟩
        exact ⟨by linarith, hstrained⟩
      · rintro ⟨hdisk, hstrained⟩
        rcases h with hfull | hs | ⟨hlow, hcool⟩
        · linarith
        · exact absurd hs hstrained
        · exact ⟨hlow, hstrained, hcool⟩
    · intro hcritical
      rw [overallStatus_eq_critical_iff] at hcritical
      exact (focus_eq_disk_iff _).mpr hcritical

def crowded : Overview := { Overview.zero with diskPercent := 90 }

/-- With the root filesystem 90% full the badge asks for attention, while the
explanation says that root storage has comfortable room. -/
theorem crowded_disk :
    overallStatus crowded = .attention ∧ (buildViewDiagnosis crowded).focus = .healthy ∧
      (buildViewDiagnosis crowded).detail = healthyDetail ∧ ¬ Agrees crowded := by
  refine ⟨by decide +kernel, by decide +kernel, by decide +kernel, fun h => ?_⟩
  exact absurd (h.healthy.mpr (by decide +kernel)) (by decide +kernel)

variable (env : Env)

def waitNs : Calls Bool := Calls.call env.sleeps

/-- Without the rounding of the source's doubles. -/
def elapsedSeconds (start stop : Timespec) : ℚ :=
  (stop.sec - start.sec : Int) + ((stop.nsec - start.nsec : Int) : ℚ) / 1000000000

def networkAt : Calls (Option (NetworkSample × Timespec)) := do
  match ← networkRead env with
  | none => return none
  | some net => return (← Calls.call env.clock).map fun time => (net, time)

/-- The rates since the first reading; `none` is `network_ok == 0`. -/
def networkSince (first : Option (NetworkSample × Timespec)) : Calls (Option (ℚ × ℚ)) := do
  match first with
  | none => return none
  | some (prev, start) =>
    match ← networkAt env with
    | none => return none
    | some (curr, stop) => return networkRate prev curr (elapsedSeconds start stop)

/-- What `process_cpu_top_since` leaves behind: its entries and their total, or
nothing where there was no snapshot or it failed. -/
def cpuTopSince (previous : Option (List ProcessCpuCounter)) (systemDeltaTicks : UInt64) :
    Calls (Option (List ProcessCpuInfo × Nat)) :=
  match previous with
  | none => pure none
  | some previous => processCpuTopSince env previous systemDeltaTicks topProcessCount

def overviewOf (host : Option HostInfo) (memory : MemorySample) (usage : MemoryUsage)
    (disk : DiskSample) (diskUsed : ℚ × UInt64) (cpuPercent : ℚ) (rates : Option (ℚ × ℚ))
    (cpuTop : Option (List ProcessCpuInfo × Nat)) (memoryTop : Option (List ProcessInfo × Nat)) :
    Overview where
  host := host.getD HostInfo.zero
  memory := memory
  disk := disk
  memoryTop := (memoryTop.map Prod.fst).getD []
  cpuTop := (cpuTop.map Prod.fst).getD []
  cpuPercent := cpuPercent
  memoryPercent := usage.percent
  diskPercent := diskUsed.1
  rxPerSec := (rates.map Prod.fst).getD 0
  txPerSec := (rates.map Prod.snd).getD 0
  memoryUsedKib := usage.usedKib
  swapUsedKib := usage.swapUsedKib
  diskUsedBytes := diskUsed.2
  memoryProcessTotal := (memoryTop.map Prod.snd).getD 0
  cpuProcessTotal := (cpuTop.map Prod.snd).getD 0
  hostOk := host.isSome
  networkOk := rates.isSome
  memoryProcessOk := memoryTop.isSome
  cpuProcessOk := cpuTop.isSome

/-- The second half, behind the second reading of `/proc/stat`. -/
def finishOverview (host : Option HostInfo) (memory : MemorySample) (disk : DiskSample)
    (cpuPrev cpuCurr : CpuSample) (first : Option (NetworkSample × Timespec))
    (previous : Option (List ProcessCpuCounter)) : Calls (Option Overview) := do
  let rates ← networkSince env first
  match cpuUsage cpuPrev cpuCurr, cpuTotalDelta cpuPrev cpuCurr, memoryUsage memory,
      diskUsage disk with
  | some cpuPercent, some systemDeltaTicks, some usage, some diskUsed =>
    let cpuTop ← cpuTopSince env previous systemDeltaTicks
    let memoryTop ← processTopMemory env topProcessCount
    return some (overviewOf host memory usage disk diskUsed cpuPercent rates cpuTop memoryTop)
  | _, _, _, _ => return none

def collectOverview : Calls (Option Overview) := do
  let host ← hostRead env
  match ← memoryRead env with
  | none => return none
  | some memory =>
    match ← diskReadRoot env with
    | none => return none
    | some disk =>
      match ← cpuRead env with
      | none => return none
      | some cpuPrev =>
        let first ← networkAt env
        let previous ← processCpuSnapshotTake env
        if ← waitNs env then
          match ← cpuRead env with
          | none => return none
          | some cpuCurr => finishOverview env host memory disk cpuPrev cpuCurr first previous
        else return none

end RookieTop.CollectOverview
