import RookieTop.Lives
import RookieTop.Notices

/-! The explanation of an overview, in full. Its buffers hold both sentences of every
overview that a run takes. -/
namespace RookieTop.Wording

open CLib Trace Process ProcessCpu DiagnosisBuild CollectOverview Views

def wording (input : DiagnosisInput) : DiagnosisFocus → Bytes × Bytes
  | .disk => (ascii "Root storage is almost full.", diskDetail input)
  | .memory => (ascii "Available memory is getting tight.", memoryDetail input)
  | .cpu => (ascii "The CPUs are very busy right now.", cpuDetail input)
  | .load => (ascii "More work is waiting than this CPU count handles comfortably.", loadDetail input)
  | .healthy => (ascii "Nothing looks constrained right now.", healthyDetail)

theorem diagnosis_focus (focus : DiagnosisFocus) (headline detail : Bytes) :
    (diagnosis focus headline detail).focus = focus := rfl

theorem diagnosisBuild_wording (input : DiagnosisInput) :
    diagnosisBuild input = diagnosis (diagnosisBuild input).focus
      (wording input (diagnosisBuild input).focus).1
      (wording input (diagnosisBuild input).focus).2 := by
  unfold diagnosisBuild
  split_ifs <;> simp only [diagnosis_focus, wording]

structure Measured (input : DiagnosisInput) : Prop where
  cpuName : ∀ name, input.topCpuName = some name → name.length < 64
  memoryName : ∀ name, input.topMemoryName = some name → name.length < 64
  cpu : 0 ≤ input.topCpuPercent ∧ input.topCpuPercent < 10 ^ 22

theorem counter_lt (n : UInt64) : (n.toNat : ℚ) < 18446744073709551616 := by
  exact_mod_cast n.toNat_lt

theorem bytesToGib_length (n : UInt64) : (formatTenths (bytesToGib n)).length ≤ 14 := by
  have hlt := counter_lt n
  apply @formatTenths_length_le _ 11
  · unfold bytesToGib
    positivity
  · unfold bytesToGib
    rw [div_lt_iff₀ (by norm_num)]
    linarith

theorem toGib_length (n : UInt64) : (formatTenths (toGib n)).length ≤ 17 := by
  have hlt := counter_lt n
  apply @formatTenths_length_le _ 14
  · unfold toGib
    positivity
  · unfold toGib
    rw [div_lt_iff₀ (by norm_num)]
    linarith

theorem toMib_length (n : UInt64) : (formatTenths (toMib n)).length ≤ 20 := by
  have hlt := counter_lt n
  apply @formatTenths_length_le _ 17
  · unfold toMib
    positivity
  · unfold toMib
    rw [div_lt_iff₀ (by norm_num)]
    linarith

theorem getD_length {name : Option Bytes} (h : ∀ n, name = some n → n.length < 64) :
    (name.getD []).length < 64 := by
  cases name with
  | none => decide
  | some n => exact h n rfl

theorem headline_length (input : DiagnosisInput) (focus : DiagnosisFocus) :
    (wording input focus).1.length < headlineSize := by
  cases focus <;> simp [wording, ascii, headlineSize]

theorem memoryDetail_length {input : DiagnosisInput} (h : Measured input) :
    (memoryDetail input).length < detailSize := by
  have hname := getD_length h.memoryName
  have havailable := toGib_length input.memoryAvailableKib
  have hsize := toMib_length input.topMemoryKib
  unfold memoryDetail detailSize
  split_ifs
  · simp [ascii]
    omega
  · simp [ascii]
    omega

theorem cpuDetail_length {input : DiagnosisInput} (h : Measured input) :
    (cpuDetail input).length < detailSize := by
  have hname := getD_length h.cpuName
  have hshare := formatTenths_length_le h.cpu.1 h.cpu.2
  unfold cpuDetail detailSize
  split_ifs
  · simp [ascii]
    omega
  · simp [ascii]

theorem detail_length {input : DiagnosisInput} (h : Measured input) (focus : DiagnosisFocus) :
    (wording input focus).2.length < detailSize := by
  cases focus with
  | disk =>
    have havailable := bytesToGib_length input.diskAvailableBytes
    simp [wording, diskDetail, detailSize, ascii]
    omega
  | memory => exact memoryDetail_length h
  | cpu => exact cpuDetail_length h
  | load =>
    unfold wording loadDetail
    split_ifs <;> simp [ascii, detailSize]
  | healthy => simp [wording, healthyDetail, ascii, detailSize]

theorem diagnosis_whole {focus : DiagnosisFocus} {headline detail : Bytes}
    (hheadline : headline.length < headlineSize) (hdetail : detail.length < detailSize) :
    diagnosis focus headline detail = ⟨focus, headline, detail⟩ := by
  unfold diagnosis snprintf
  rw [List.take_of_length_le (by omega), List.take_of_length_le (by omega)]

theorem viewInput_measured {view : Overview} (h : WellFormed view) : Measured (viewInput view) := by
  have hcpu : ∀ info, (if view.cpuProcessOk then view.cpuTop.head? else none) = some info →
      CpuListed info := by
    intro info hinfo
    split_ifs at hinfo
    exact h.cpuTop.listed info (List.mem_of_mem_head? hinfo)
  have hmemory : ∀ process, (if view.memoryProcessOk then view.memoryTop.head? else none) =
      some process → MemoryListed process := by
    intro process hprocess
    split_ifs at hprocess
    exact h.memoryTop.listed process (List.mem_of_mem_head? hprocess)
  unfold viewInput
  dsimp only
  generalize (if view.cpuProcessOk then view.cpuTop.head? else none) = cpu at hcpu ⊢
  generalize (if view.memoryProcessOk then view.memoryTop.head? else none) = memory at hmemory ⊢
  constructor
  · intro name hname
    obtain ⟨info, hinfo, rfl⟩ := Option.map_eq_some_iff.mp hname
    exact (hcpu info hinfo).name.fits
  · intro name hname
    obtain ⟨process, hprocess, rfl⟩ := Option.map_eq_some_iff.mp hname
    exact (hmemory process hprocess).name.fits
  · cases cpu with
    | none => norm_num
    | some info =>
      have hlisted := hcpu info rfl
      refine ⟨hlisted.positive.le, hlisted.bound.trans_lt ?_⟩
      norm_num

/-- The explanation of every overview of a run is what there is to say about it, to the last
letter. -/
theorem explanation_whole (env : Sys.Env) (n : Nat) :
    ∀ view ∈ views env n, buildViewDiagnosis view =
      ⟨(buildViewDiagnosis view).focus,
        (wording (viewInput view) (buildViewDiagnosis view).focus).1,
        (wording (viewInput view) (buildViewDiagnosis view).focus).2⟩ := by
  intro view hview
  have hmeasured := viewInput_measured (mem_views env hview)
  unfold buildViewDiagnosis
  rw [← diagnosis_whole (headline_length _ _) (detail_length hmeasured _)]
  exact diagnosisBuild_wording (viewInput view)

def tight : Sys.Env := Lives.lastingMachine.env
  { Lives.stopping with
    content := fun _ n path =>
      match path with
      | .stat => ⟨ascii "cpu 0 0 0 " ++ decimal n ++ [10], false⟩
      | .meminfo =>
        ⟨ascii "MemTotal: 8388608 kB\nMemAvailable: 209716 kB\nSwapTotal: 0 kB\nSwapFree: 0 kB\n", false⟩
      | _ => ⟨[], false⟩ }

theorem explanation_whole_tight : ∃ view ∈ views tight 1,
    (buildViewDiagnosis view).focus = .memory ∧
    (buildViewDiagnosis view).detail =
      ascii "0.2 GiB is still available. old is the largest visible process at 0.0 MiB, but one process may not explain all memory use." ∧
    buildViewDiagnosis view =
      ⟨(buildViewDiagnosis view).focus,
        (wording (viewInput view) (buildViewDiagnosis view).focus).1,
        (wording (viewInput view) (buildViewDiagnosis view).focus).2⟩ := by
  have htaken : (views tight 1).head?.map (fun view =>
      ((buildViewDiagnosis view).focus, (buildViewDiagnosis view).detail)) =
      some (.memory, ascii "0.2 GiB is still available. old is the largest visible process at 0.0 MiB, but one process may not explain all memory use.") := by
    decide +kernel
  obtain ⟨view, hview, heq⟩ := Option.map_eq_some_iff.mp htaken
  obtain ⟨hfocus, hdetail⟩ := Prod.mk.inj heq
  have hmem := List.mem_of_mem_head? hview
  exact ⟨view, hmem, hfocus, hdetail, explanation_whole tight 1 view hmem⟩

end RookieTop.Wording
