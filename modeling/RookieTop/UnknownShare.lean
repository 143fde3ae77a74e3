import RookieTop.CpuJoin
import RookieTop.RenderProcesses

/-! Shares that nobody has measured. The list marks every share as unknown, but the join
replaces the mark by the share 0 that the second scan gives to what it has not seen
before. -/
namespace RookieTop.UnknownShare

open CLib Trace Sys ProcDir ProcessCpu ProcessList Explorer Kernel Lives CpuShare CpuJoin
  RenderProcesses

variable (env : Env)

def Seen (n : Nat) (row : ProcessRow) : Prop :=
  ∃ previous ticks found, (sampleWindow env).value n = some (previous, ticks) ∧
    (scanProc env 1 88 (readProcessStat env)).value (scannedAt env n) = some found ∧
    ∃ old ∈ previous, ∃ now ∈ found, Measured old now row

/-- A share that is shown was measured, and one that was not is shown as unknown. -/
def Honest (n : Nat) : Prop :=
  ∀ rows, (sampleProcessRows env).value n = some rows → ∀ row ∈ rows,
    (0 ≤ row.cpuPercent → Seen env n row) ∧
      (¬ Seen env n row → row.cpuPercent = -1 ∧
        ∀ cap, formatProcessCpu row.cpuPercent cap = snprintf cap (ascii "--"))

/-- Whatever the list and the second scan both find of one instance, the snapshot has
found too, with no more ticks. -/
def NoneNew (n : Nat) : Prop :=
  ∀ previous ticks found rows, (sampleWindow env).value n = some (previous, ticks) →
    (processListRead env).value (listedAt env n) = some rows →
    (scanProc env 1 88 (readProcessStat env)).value (scannedAt env n) = some found →
    ∀ row ∈ rows, ∀ now ∈ found, now.pid = row.pid → now.starttime = row.starttime →
      ∃ old ∈ previous, old.pid = row.pid ∧ old.starttime = row.starttime ∧
        old.ticks ≤ now.ticks

theorem formatProcessCpu_unknown (cap : Nat) :
    formatProcessCpu (-1) cap = snprintf cap (ascii "--") := by
  unfold formatProcessCpu
  rw [if_pos (by norm_num)]

variable {env} {n : Nat}

theorem honest_of_noneNew (hproc : Procfs env) (hnone : NoneNew env n) : Honest env n := by
  intro rows hrows row hrow
  have hknown : Seen env n row ∨ row.cpuPercent = -1 := by
    obtain ⟨listed, hlisted, hjoin⟩ := sampleProcessRows_cases env hrows
    have hunknown := (processListRead_keeps env hlisted).2
    rcases hjoin with rfl | ⟨previous, ticks, items, hwindow, hitems, rfl⟩
    · exact Or.inr (hunknown row hrow)
    · obtain ⟨found, hscan, hscanned⟩ := allSince_scanned hproc hitems
      obtain ⟨old, hold, rfl⟩ := List.mem_map.mp hrow
      rcases joinShare_cases items old with hsame | ⟨info, hinfo, hpid, hstart, hshare⟩
      · rw [hsame]
        exact Or.inr (hunknown old hold)
      · obtain ⟨now, hnow, rfl⟩ := hscanned.mem hinfo
        obtain ⟨counter, hcounter, hcpid, hcstart, hgrown⟩ :=
          hnone previous ticks found listed hwindow hlisted hscan old hold now hnow hpid hstart
        rw [hshare]
        exact Or.inl ⟨previous, ticks, found, hwindow, hscan, counter, hcounter, now, hnow,
          ⟨hcpid, hcstart⟩, ⟨hpid, hstart⟩, hgrown⟩
  constructor
  · intro hpos
    apply hknown.resolve_right
    intro hminus
    rw [hminus] at hpos
    norm_num at hpos
  · intro hunseen
    have hminus := hknown.resolve_left hunseen
    rw [hminus]
    exact ⟨rfl, formatProcessCpu_unknown⟩

theorem noneNew_of_honest (hproc : Procfs env) (hhonest : Honest env n) : NoneNew env n := by
  intro previous ticks found rows hwindow hlisted hscan row hrow now hnow hpid hstart
  obtain ⟨prev, -, hbetween⟩ := Option.bind_eq_some_iff.mp (sampleWindow_some env hwindow).2
  obtain ⟨curr, -, hticks⟩ := Option.bind_eq_some_iff.mp hbetween
  have hne : ticks ≠ 0 := (Cpu.cpuTotalDelta_toNat hticks).2.2
  obtain ⟨items, hitems⟩ : ∃ items,
      (processCpuAllSince env previous ticks).value (scannedAt env n) = some items := by
    rw [allSince_eq hproc previous hne, hscan, Option.map_some]
    exact ⟨_, rfl⟩
  obtain ⟨found', hscan', hscanned⟩ := allSince_scanned hproc hitems
  cases hscan.symm.trans hscan'
  have hjoin := hscanned.join hnow hpid hstart
  have hsample : (sampleProcessRows env).value n = some (rows.map (joinShare items)) := by
    rw [sampleProcessRows_value, hlisted, hwindow, Option.bind_some, hitems, Option.map_some]
  have hrow' := hhonest _ hsample _ (List.mem_map_of_mem hrow)
  rw [hjoin] at hrow'
  have hpos : 0 ≤ cpuShare previous ticks row.pid now := by
    rcases @cpuShare_cases previous row.pid now ticks with hzero | ⟨hpos, -⟩
    · rw [hzero]
    · exact hpos
  obtain ⟨previous', ticks', found', hwindow', hscan', old, hold, now', hnow', hmeasured⟩ :=
    hrow'.1 hpos
  cases hwindow.symm.trans hwindow'
  cases hscan.symm.trans hscan'
  obtain ⟨hbefore, hafter, hgrown⟩ := hmeasured
  have hsame : now' = now :=
    List.inj_on_of_nodup_map hscanned.once hnow' hnow (hafter.1.trans hpid.symm)
  rw [hsame] at hgrown
  exact ⟨old, hold, hbefore.1, hbefore.2, hgrown⟩

theorem honest_iff (hproc : Procfs env) (n : Nat) : Honest env n ↔ NoneNew env n :=
  ⟨noneNew_of_honest hproc, honest_of_noneNew hproc⟩

theorem turns_honest :
    ((sampleProcessRows (takingTurns.run.env calm)).value 0).map
        (List.map fun row => (row.pid, row.cpuPercent)) = some [(10, 35), (7, 5), (8, -1)] ∧
      Honest (takingTurns.run.env calm) 0 := by
  have hwindow : (sampleWindow (takingTurns.run.env calm)).value 0 = some (turnsPrevious, 20) := by
    decide +kernel
  have hlisted : (processListRead (takingTurns.run.env calm)).value
      (listedAt (takingTurns.run.env calm) 0) = some turnsRows := by decide +kernel
  have hfound : (scanProc (takingTurns.run.env calm) 1 88
      (readProcessStat (takingTurns.run.env calm))).value
        (scannedAt (takingTurns.run.env calm) 0) =
      some [⟨10, ascii "yes", 7, 70⟩, ⟨7, ascii "yes", 11, 100⟩, ⟨8, ascii "yes", 0, 300⟩] := by
    decide +kernel
  refine ⟨by decide +kernel, (honest_iff turns_procfs 0).mpr ?_⟩
  intro previous ticks found rows hprevious hrows hscan
  cases hwindow.symm.trans hprevious
  cases hlisted.symm.trans hrows
  cases hfound.symm.trans hscan
  decide +kernel

def lateLife : Life := { shellLife with born := 10 }

theorem lateLife_apart : [oldLife 1000, lateLife].Pairwise Life.Apart := by
  simp [Life.Apart, oldLife, lateLife, shellLife]

def newborn : Machine := machine [oldLife 1000, lateLife] lateLife_apart

/-- It is listed with a share of 0. -/
theorem newborn_invents :
    ((sampleProcessRows (newborn.env (attended [ascii "7", ascii "8"] []))).value 0).map
        (List.map fun row => (row.pid, row.cpuPercent)) = some [(7, 0), (8, 0)] ∧
      ¬ Honest (newborn.env (attended [ascii "7", ascii "8"] [])) 0 := by
  have hshares : ((sampleProcessRows (newborn.env (attended [ascii "7", ascii "8"] []))).value 0).map
      (List.map fun row => (row.pid, row.cpuPercent)) = some [(7, 0), (8, 0)] := by decide +kernel
  have hwindow : (sampleWindow (newborn.env (attended [ascii "7", ascii "8"] []))).value 0 =
      some ([⟨7, 0, 100⟩], 11) := by decide +kernel
  refine ⟨hshares, fun h => ?_⟩
  obtain ⟨rows, hrows, heq⟩ := Option.map_eq_some_iff.mp hshares
  have hmem : ((8, 0) : Int × ℚ) ∈ rows.map fun row => (row.pid, row.cpuPercent) := by
    rw [heq]
    simp
  obtain ⟨row, hrow, hpair⟩ := List.mem_map.mp hmem
  obtain ⟨hpid, hshare⟩ := Prod.mk.inj hpair
  obtain ⟨previous, ticks, found, hprevious, -, old, hold, now, -, hmeasured⟩ :=
    (h rows hrows row hrow).1 hshare.ge
  cases hwindow.symm.trans hprevious
  rw [List.mem_singleton] at hold
  have hwrong := hmeasured.before.1
  rw [hold, hpid] at hwrong
  exact absurd hwrong (by decide)

end RookieTop.UnknownShare
