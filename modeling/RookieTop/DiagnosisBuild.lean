import RookieTop.CLib.Printf

/-! The explanation of a sample: its focus, chosen by the first threshold that is
reached, and the two sentences about it. -/
namespace RookieTop.DiagnosisBuild

open CLib

inductive DiagnosisFocus where
  | healthy
  | cpu
  | memory
  | disk
  | load
  deriving DecidableEq, Repr

structure DiagnosisInput where
  cpuPercent : ℚ
  memoryPercent : ℚ
  diskPercent : ℚ
  loadRatio : ℚ
  memoryAvailableKib : UInt64
  diskAvailableBytes : UInt64
  topCpuName : Option Bytes
  topCpuPercent : ℚ
  topMemoryName : Option Bytes
  topMemoryKib : UInt64

structure Diagnosis where
  focus : DiagnosisFocus
  headline : Bytes
  detail : Bytes
  deriving DecidableEq

def headlineSize : Nat := 128
def detailSize : Nat := 256

def hasName : Option Bytes → Bool
  | some (_ :: _) => true
  | _ => false

def toGib (kib : UInt64) : ℚ := kib.toNat / 1048576
def toMib (kib : UInt64) : ℚ := kib.toNat / 1024
def bytesToGib (bytes : UInt64) : ℚ := bytes.toNat / 1073741824

def diagnosis (focus : DiagnosisFocus) (headline detail : Bytes) : Diagnosis :=
  ⟨focus, snprintf headlineSize headline, snprintf detailSize detail⟩

def diskDetail (input : DiagnosisInput) : Bytes :=
  ascii "Only " ++ formatTenths (bytesToGib input.diskAvailableBytes) ++
    ascii " GiB is available. Running out of root space can break logs, updates, databases, and normal writes."

def memoryDetail (input : DiagnosisInput) : Bytes :=
  if hasName input.topMemoryName then
    formatTenths (toGib input.memoryAvailableKib) ++ ascii " GiB is still available. " ++
      input.topMemoryName.getD [] ++ ascii " is the largest visible process at " ++
      formatTenths (toMib input.topMemoryKib) ++
      ascii " MiB, but one process may not explain all memory use."
  else
    formatTenths (toGib input.memoryAvailableKib) ++
      ascii " GiB is still available. Watch whether available memory keeps falling before treating this as sustained pressure."

def cpuDetail (input : DiagnosisInput) : Bytes :=
  if hasName input.topCpuName ∧ 15 ≤ input.topCpuPercent then
    input.topCpuName.getD [] ++ ascii " accounts for about " ++
      formatTenths input.topCpuPercent ++
      ascii "% of whole-machine CPU in this short sample. A brief spike can still be normal."
  else
    ascii "No single visible process dominates this short sample. Watch whether the high usage persists before drawing a conclusion."

def loadDetail (input : DiagnosisInput) : Bytes :=
  if input.cpuPercent < 70 then
    ascii "CPU is not saturated, so some of the load may be waiting on I/O or other kernel work. Load is not another CPU percentage."
  else
    ascii "CPU is busy too, so runnable work may be queueing for processor time. Watch whether both values stay high."

def healthyDetail : Bytes :=
  ascii "CPU, available memory, load, and root storage all have comfortable room. Short spikes can still happen and are usually normal."

def diagnosisBuild (input : DiagnosisInput) : Diagnosis :=
  if 95 ≤ input.diskPercent then
    diagnosis .disk (ascii "Root storage is almost full.") (diskDetail input)
  else if 90 ≤ input.memoryPercent then
    diagnosis .memory (ascii "Available memory is getting tight.") (memoryDetail input)
  else if 90 ≤ input.cpuPercent then
    diagnosis .cpu (ascii "The CPUs are very busy right now.") (cpuDetail input)
  else if 5 / 4 ≤ input.loadRatio then
    diagnosis .load (ascii "More work is waiting than this CPU count handles comfortably.")
      (loadDetail input)
  else diagnosis .healthy (ascii "Nothing looks constrained right now.") healthyDetail

theorem focus_eq_healthy_iff (input : DiagnosisInput) :
    (diagnosisBuild input).focus = .healthy ↔
      input.diskPercent < 95 ∧ input.memoryPercent < 90 ∧ input.cpuPercent < 90 ∧
        input.loadRatio < 5 / 4 := by
  unfold diagnosisBuild
  split_ifs <;> simp_all [diagnosis]

theorem focus_eq_disk_iff (input : DiagnosisInput) :
    (diagnosisBuild input).focus = .disk ↔ 95 ≤ input.diskPercent := by
  unfold diagnosisBuild
  split_ifs <;> simp_all [diagnosis]

end RookieTop.DiagnosisBuild
