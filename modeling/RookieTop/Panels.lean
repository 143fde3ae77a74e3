import RookieTop.Lives
import RookieTop.Process
import RookieTop.ProcessOrder

/-! The panels of the overview against the explorer. Their small arrays hold the head of
the order in which the explorer lists the same processes. -/
namespace RookieTop.Panels

open CLib Trace Sys Tables ProcDir ProcessCpu ProcessList Process Explorer ProcessOrder Lives

def cpuRow (info : ProcessCpuInfo) : ProcessRow :=
  { emptyRow info.pid with
    name := info.name
    starttime := info.starttime
    cpuPercent := info.cpuPercent }

def memoryRow (process : ProcessInfo) : ProcessRow :=
  { emptyRow process.pid with
    name := process.name
    rssKib := process.rssKib }

def compareShares (left right : ProcessCpuInfo) : Int := compareCpu (cpuRow left) (cpuRow right)

def compareSizes (left right : ProcessInfo) : Int := compareMemory (memoryRow left) (memoryRow right)

def positive (infos : List ProcessCpuInfo) : List ProcessCpuInfo :=
  infos.filter fun info => 0 < info.cpuPercent

theorem compareShares_spec : Comparator compareShares where
  total a b := (comparator_spec .cpu).total (cpuRow a) (cpuRow b)
  trans hab hbc := (comparator_spec .cpu).trans hab hbc

theorem compareSizes_spec : Comparator compareSizes where
  total a b := (comparator_spec .memory).total (memoryRow a) (memoryRow b)
  trans hab hbc := (comparator_spec .memory).trans hab hbc

/-- A stable sort of what is sorted by pid breaks its ties by pid, as the comparators do. -/
theorem bestFirst_eq_sort {Entry Score : Type} [LE Score] [DecidableLE Score]
    [Std.IsLinearOrder Score] {score : Entry → Score} {pid : Entry → Int}
    {cmp : Entry → Entry → Int} (hcmp : Comparator cmp)
    (hscore : ∀ a b, score b ≤ score a → (score a ≤ score b → pid a < pid b) → cmp a b ≤ 0)
    (hpid : ∀ a b, cmp a b ≤ 0 → cmp b a ≤ 0 → pid a = pid b) {given entries : List Entry}
    (hgiven : given.Pairwise fun a b => pid a < pid b) (hperm : given.Perm entries) (q : Qsort) :
    bestFirst score given = q.sort cmp entries := by
  have hnodup : (given.map pid).Nodup := List.pairwise_map.mpr (hgiven.imp LT.lt.ne)
  have hbest := bestFirst_perm score given
  have hsorted : (bestFirst score given).Pairwise fun a b => cmp a b ≤ 0 :=
    ((bestFirst_spec given).breaks_ties hgiven).imp fun ⟨hle, htie⟩ => hscore _ _ hle htie
  have hsort := q.perm cmp entries
  apply List.Perm.eq_of_pairwise _ hsorted (q.sorted hcmp entries)
  · exact (hbest.trans hperm).trans hsort.symm
  · intro a b ha hb hab hba
    exact List.inj_on_of_nodup_map hnodup (hbest.mem_iff.mp ha)
      (hperm.mem_iff.mpr (hsort.mem_iff.mp hb)) (hpid a b hab hba)

theorem top_shares {infos : List ProcessCpuInfo} (hpids : (infos.map ProcessCpuInfo.pid).Nodup)
    (cap : Nat) (q q' : Qsort) :
    (positive (q.sort compareInfoPid infos)).foldl (insertTop ProcessCpuInfo.cpuPercent cap) [] =
      (q'.sort compareShares (positive infos)).take cap := by
  rw [foldl_insertTop]
  apply congrArg (List.take cap)
  apply bestFirst_eq_sort compareShares_spec
  · intro a b hle htie
    apply (compareCpu_nonpos (cpuRow a) (cpuRow b)).mpr
    rcases lt_or_eq_of_le hle with hlt | heq
    · exact Or.inl hlt
    · exact Or.inr ⟨heq.symm, (htie heq.ge).le⟩
  · exact fun a b hab hba =>
      @pid_eq_of_nonpos .cpu (cpuRow a) (cpuRow b) hab hba
  · exact (sort_pids (fun _ _ => rfl) hpids q).sublist List.filter_sublist
  · exact (q.perm compareInfoPid infos).filter _

structure Agree (env : Env) (cap n : Nat) : Prop where
  /-- The largest shares, as the explorer ranks the positive ones, and how many were read. -/
  cpu : ∀ {previous : List ProcessCpuCounter} {ticks : UInt64} {infos : List ProcessCpuInfo},
    ticks ≠ 0 → (scanProc env 1 88 (readInfo env previous ticks)).value n = some infos →
    (infos.map ProcessCpuInfo.pid).Nodup → ∀ q : Qsort,
      (processCpuTopSince env previous ticks cap).value n =
        some ((q.sort compareShares (positive infos)).take cap, infos.length)
  /-- The head of the stable sort of the scan, and how many were read. -/
  memory : ∀ {dir : Directory}, env.directory n = some dir → dir.error = false →
    dir.closes = true →
      (processTopMemory env cap).value n =
        some ((bestFirst ProcessInfo.rssKib ((scanned env dir.names).value (n + 1))).take cap,
          ((scanned env dir.names).value (n + 1)).length)
  /-- In a scan by ascending pids that is the explorer's order. -/
  memory_ascending : ∀ {names : List Bytes}, (names.filterMap parsePid).Pairwise (· < ·) →
    ∀ q : Qsort, bestFirst ProcessInfo.rssKib ((scanned env names).value (n + 1)) =
      q.sort compareSizes ((scanned env names).value (n + 1))

theorem panels_agree (env : Env) {cap : Nat} (hcap : 1 ≤ cap) (n : Nat) : Agree env cap n := by
  constructor
  · intro previous ticks infos hticks hscan hpids q
    have hargs : ¬ (ticks = 0 ∨ cap = 0) := by
      rintro (h | h)
      · exact hticks h
      · omega
    have htop := top_shares hpids cap env.qsort q
    have hlength := (env.qsort.perm compareInfoPid infos).length_eq
    unfold positive at htop ⊢
    unfold processCpuTopSince processCpuAllSince
    rw [if_neg hargs, if_neg hticks]
    simp only [Calls.value_bind, Calls.value_pure, hscan, Option.map_some, htop, hlength]
  · intro dir hdir herror hcloses
    unfold processTopMemory
    rw [if_neg (by omega)]
    simp only [Calls.value_bind, Calls.value_call, Calls.after_call, hdir, Calls.value_pure,
      topLoop_value, herror, hcloses, foldl_insertTop]
    simp
  · intro names hnames q
    have hascending : ((scanned env names).value (n + 1)).Pairwise fun a b => a.pid < b.pid :=
      List.pairwise_map.mp (hnames.sublist (scanned_pids env names (n + 1)))
    apply bestFirst_eq_sort compareSizes_spec _ _ hascending (List.Perm.refl _)
    · intro a b hle htie
      apply (compareMemory_nonpos (memoryRow a) (memoryRow b)).mpr
      by_cases hge : a.rssKib ≤ b.rssKib
      · exact Or.inr ⟨UInt64.le_antisymm hge hle, (htie hge).le⟩
      · exact Or.inl (UInt64.not_le.mp hge)
    · exact fun a b hab hba => @pid_eq_of_nonpos .memory (memoryRow a) (memoryRow b) hab hba

def sizeOf (pid : Int) : UInt64 := if pid = 7 then 50 else if pid = 12 then 10 else 100

def ticksOf (pid : Int) : UInt64 := if pid = 7 then 3 else if pid = 8 then 0 else 4

/-- Four processes of which two have the largest size, and two the largest share. -/
def crowded : Env where
  __ := Env.idle
  opens _ _ := true
  directory _ := some ⟨[ascii "7", ascii "8", ascii "9", ascii "12"], false, true⟩
  content _ _ path :=
    match path with
    | .pidStat pid => ⟨(plainTask (ascii "job") (by decide) (ticksOf pid) 100).statText pid, false⟩
    | .pidStatus pid =>
      ⟨StatusText.statusText (ascii "job") [.vmRss [] (sizeOf pid) (by simp) (by simp)], false⟩
    | _ => ⟨[], false⟩

def crowdedBefore : List ProcessCpuCounter :=
  [⟨7, 0, 100⟩, ⟨8, 0, 100⟩, ⟨9, 0, 100⟩, ⟨12, 0, 100⟩]

theorem crowded_agree :
    Agree crowded 2 0 ∧
      (processCpuTopSince crowded crowdedBefore 20 2).value 0 =
        some ([⟨9, ascii "job", 20, 100⟩, ⟨12, ascii "job", 20, 100⟩], 4) ∧
      (processTopMemory crowded 2).value 0 =
        some ([⟨8, ascii "job", 100⟩, ⟨9, ascii "job", 100⟩], 4) := by
  have hagree := panels_agree crowded (show 1 ≤ 2 by decide) 0
  exact ⟨hagree, by decide +kernel, by decide +kernel⟩

end RookieTop.Panels
