import RookieTop.Lives
import Mathlib.Data.Int.Interval

/-! The list of processes against the processes there are, while none of them changes. -/
namespace RookieTop.Completeness

open CLib Trace Sys ProcDir ProcessCpu ProcessList StatusText Kernel Lives

structure Population where
  tasks : List (Int × Task)
  pids : (tasks.map Prod.fst).Nodup
  range : ∀ p ∈ tasks, 0 < p.1 ∧ p.1 ≤ intMax

/-- Their directories are in `/proc`, among entries that are no pids. -/
structure Lists (pop : Population) (dir : Directory) : Prop where
  error : dir.error = false
  closes : dir.closes = true
  names : ∃ others, dir.names.Perm ((pop.tasks.map fun p => decimal p.1.toNat) ++ others) ∧
    ∀ name ∈ others, parsePid name = none

/-- For a while every process can be read and stays as it is, and memory is at hand. -/
structure Still (env : Env) (pop : Population) (start stop : Nat) : Prop where
  allocates : ∀ t, start ≤ t → t < stop → env.allocates t = true
  closes : ∀ t, start ≤ t → t < stop → env.closes t = true
  opens : ∀ t, start ≤ t → t < stop → ∀ p ∈ pop.tasks, ∀ path, pidOf path = some p.1 →
    env.opens t path = true
  content : ∀ opened t, start ≤ opened → t < stop → ∀ p ∈ pop.tasks, ∀ path,
    pidOf path = some p.1 → env.content opened t path = ⟨p.2.text path, false⟩

def OneRowEach (pop : Population) (result : Option (List ProcessRow)) : Prop :=
  ∃ rows, result = some rows ∧
    (rows.map fun row => (row.pid, row.starttime)).Perm
      (pop.tasks.map fun p => (p.1, p.2.starttime))

def Listed (p : Int × Task) : Prop := nameShown p.2.comm = true ∧ p.2.StatReadable

def rowOf (p : Int × Task) : Option ProcessRow :=
  (parseStatus p.1 ⟨p.2.text (.pidStatus p.1), false⟩).bind fun row =>
    (parseStatStream ⟨p.2.text (.pidStat p.1), false⟩).map fun stat =>
      { row with starttime := stat.starttime }

theorem rowOf_cases {p : Int × Task} (hpid : 0 < p.1 ∧ p.1 ≤ intMax) :
    (Listed p ∧ ∃ row, rowOf p = some row ∧ row.pid = p.1 ∧ row.starttime = p.2.starttime) ∨
      (¬ Listed p ∧ rowOf p = none) := by
  have hstatus : (parseStatus p.1 ⟨p.2.text (.pidStatus p.1), false⟩).isSome = true ↔
      nameShown p.2.comm = true :=
    parseStatus_statusText p.2.comm_nul p.2.comm_short p.2.status p.1
  have hstat := p.2.parseStatStream_statText hpid.1 hpid.2
  unfold rowOf Listed
  cases hparse : parseStatus p.1 ⟨p.2.text (.pidStatus p.1), false⟩ with
  | none =>
    rw [hparse] at hstatus
    refine Or.inr ⟨fun h => ?_, rfl⟩
    exact absurd (hstatus.mpr h.1) (by simp)
  | some row =>
    rw [hparse] at hstatus
    have hshown := hstatus.mp rfl
    have hpid := parseStatus_pid hparse
    rcases hstat with ⟨hreadable, hsome⟩ | ⟨hunreadable, hnone⟩
    · refine Or.inl ⟨⟨hshown, hreadable⟩, ?_⟩
      have hsome : parseStatStream ⟨p.2.text (.pidStat p.1), false⟩ = _ := hsome
      refine ⟨{ row with starttime := p.2.starttime }, ?_, hpid, rfl⟩
      rw [Option.bind_some, hsome]
      rfl
    · have hnone : parseStatStream ⟨p.2.text (.pidStat p.1), false⟩ = none := hnone
      exact Or.inr ⟨fun h => hunreadable h.2, by rw [Option.bind_some, hnone]; rfl⟩

theorem readRow_still {env : Env} {pop : Population} {start stop t : Nat}
    (h : Still env pop start stop) {p : Int × Task} (hp : p ∈ pop.tasks) (hstart : start ≤ t)
    (hstop : (readRow env p.1).after t ≤ stop) : (readRow env p.1).value t = rowOf p := by
  have hfile : (readFile env (.pidStatus p.1)).after t ≤ (readRow env p.1).after t := by
    unfold readRow
    rw [Calls.after_bind]
    exact Calls.le_after _ _
  have hopen : env.opens t (.pidStatus p.1) = true := by
    apply h.opens t hstart _ p hp _ rfl
    rw [readFile_after] at hfile
    split_ifs at hfile <;> omega
  rw [readFile_after, if_pos hopen] at hfile
  have hstatus := h.content t (t + 1) hstart (by omega) p hp (.pidStatus p.1) rfl
  have hclosed := h.closes (t + 2) (by omega) (by omega)
  unfold readRow at hstop ⊢
  unfold rowOf
  simp only [Calls.value_bind, Calls.after_bind, readFile_value, readFile_after, hopen, if_true,
    hstatus] at hstop ⊢
  cases hparse : parseStatus p.1 ⟨p.2.text (.pidStatus p.1), false⟩ with
  | none => rfl
  | some row =>
    simp only [hparse, hclosed, if_true, Calls.after_bind, Calls.after_pure, readStarttime_after]
      at hstop
    have hopen' : env.opens (t + 3) (.pidStat p.1) = true := by
      apply h.opens _ (by omega) _ p hp _ rfl
      split_ifs at hstop <;> omega
    rw [if_pos hopen'] at hstop
    have hstat := h.content (t + 3) (t + 4) (by omega) (by omega) p hp (.pidStat p.1) rfl
    have hclosed' := h.closes (t + 5) (by omega) (by omega)
    simp only [hclosed, if_true, Calls.value_bind, Calls.value_pure, readStarttime_value, hopen',
      hclosed', and_self, hstat, Option.bind_some, Option.map_map]
    rfl

theorem Lists.pids {pop : Population} {dir : Directory} (h : Lists pop dir) :
    (dir.names.filterMap parsePid).Perm (pop.tasks.map Prod.fst) := by
  obtain ⟨others, hnames, hothers⟩ := h.names
  have hrest : others.filterMap parsePid = [] := by
    rw [List.filterMap_eq_nil_iff]
    exact hothers
  have htasks : (pop.tasks.map fun p => decimal p.1.toNat).filterMap parsePid =
      pop.tasks.map Prod.fst := by
    rw [List.filterMap_map, ← List.filterMap_eq_map]
    apply List.filterMap_congr
    intro p hp
    exact parsePid_decimal (pop.range p hp).1 (pop.range p hp).2
  apply (hnames.filterMap parsePid).trans
  rw [List.filterMap_append, hrest, htasks, List.append_nil]

theorem Population.length_le (pop : Population) : pop.tasks.length ≤ intMax.toNat := by
  have hsubset : (pop.tasks.map Prod.fst).toFinset ⊆ Finset.Ioc 0 intMax := by
    intro pid hpid
    obtain ⟨p, hp, rfl⟩ := List.mem_map.mp (List.mem_toFinset.mp hpid)
    exact Finset.mem_Ioc.mpr (pop.range p hp)
  have hcard := Finset.card_le_card hsubset
  rw [List.toFinset_card_of_nodup pop.pids, List.length_map, Int.card_Ioc, sub_zero] at hcard
  exact hcard

theorem Population.find (pop : Population) {p : Int × Task} (hp : p ∈ pop.tasks) :
    (pop.tasks.find? fun q => q.1 = p.1) = some p := by
  cases hfind : pop.tasks.find? fun q => q.1 = p.1 with
  | none =>
    have := List.find?_eq_none.mp hfind p hp
    simp at this
  | some q =>
    have hpid : q.1 = p.1 := by simpa using List.find?_some hfind
    rw [List.inj_on_of_nodup_map pop.pids (List.mem_of_find?_eq_some hfind) hp hpid]

def rowAt (pop : Population) (pid : Int) : Option ProcessRow :=
  (pop.tasks.find? fun p => p.1 = pid).bind rowOf

theorem rowAt_eq (pop : Population) {p : Int × Task} (hp : p ∈ pop.tasks) :
    rowAt pop p.1 = rowOf p := by
  unfold rowAt
  rw [pop.find hp, Option.bind_some]

theorem processListRead_still {env : Env} {pop : Population} {n : Nat} {dir : Directory}
    (hdir : env.directory n = some dir) (hlists : Lists pop dir)
    (hstill : Still env pop n ((processListRead env).after n)) :
    ∃ rows, (processListRead env).value n = some rows ∧
      rows.Perm (pop.tasks.filterMap rowOf) := by
  have hlength : (dir.names.filterMap parsePid).length ≤ sizeMax / 2 / 104 := by
    rw [hlists.pids.length_eq, List.length_map]
    exact pop.length_le.trans (by decide)
  have hsome : ((processListRead env).value n).isSome = true :=
    scanProc_isSome hdir hlists.error hlists.closes hlength hstill.allocates
  obtain ⟨rows, hrows⟩ := Option.isSome_iff_exists.mp hsome
  refine ⟨rows, hrows, ?_⟩
  obtain ⟨dir', visits, hdir', hvisits, rfl⟩ := scanProc_some hrows
  cases Option.some.inj (hdir.symm.trans hdir')
  have hpids : (visits.map Prod.fst).Perm (pop.tasks.map Prod.fst) := by
    rw [hvisits.pids]
    exact hlists.pids
  have hrecords : records (readRow env) visits = (visits.map Prod.fst).filterMap (rowAt pop) := by
    rw [List.filterMap_map]
    apply List.filterMap_congr
    intro v hv
    obtain ⟨p, hp, hpid⟩ := List.mem_map.mp (hpids.subset (List.mem_map_of_mem hv))
    obtain ⟨hstart, hstop⟩ := hvisits.within v hv
    rw [← hpid] at hstop ⊢
    rw [readRow_still hstill hp hstart hstop, Function.comp_apply, ← hpid, rowAt_eq pop hp]
  have htasks : (pop.tasks.map Prod.fst).filterMap (rowAt pop) = pop.tasks.filterMap rowOf := by
    rw [List.filterMap_map]
    apply List.filterMap_congr
    intro p hp
    exact rowAt_eq pop hp
  rw [hrecords, ← htasks]
  exact hpids.filterMap _

theorem oneRowEach_iff {env : Env} {pop : Population} {n : Nat} {dir : Directory}
    (hdir : env.directory n = some dir) (hlists : Lists pop dir)
    (hstill : Still env pop n ((processListRead env).after n)) :
    OneRowEach pop ((processListRead env).value n) ↔ ∀ p ∈ pop.tasks, Listed p := by
  obtain ⟨rows, hrows, hperm⟩ := processListRead_still hdir hlists hstill
  constructor
  · rintro ⟨rows', hrows', heach⟩ p hp
    cases Option.some.inj (hrows.symm.trans hrows')
    have hlength := (hperm.map fun row => (row.pid, row.starttime)).symm.trans heach
    have hall := hlength.length_eq
    rw [List.length_map, List.length_map, List.filterMap_length_eq_length] at hall
    rcases rowOf_cases (pop.range p hp) with ⟨hlisted, -⟩ | ⟨-, hnone⟩
    · exact hlisted
    · have := hall p hp
      simp [hnone] at this
  · intro hlisted
    refine ⟨rows, hrows, ?_⟩
    apply (hperm.map _).trans
    rw [List.map_filterMap, ← List.filterMap_eq_map]
    apply List.Perm.of_eq
    apply List.filterMap_congr
    intro p hp
    rcases rowOf_cases (pop.range p hp) with ⟨-, row, hrow, hpid, hstart⟩ | ⟨hnot, -⟩
    · simp [hrow, hpid, hstart]
    · exact absurd (hlisted p hp) hnot

def Population.env (pop : Population) (names : List Bytes) : Env :=
  { calm with
    content := fun _ _ path =>
      match (pidOf path).bind fun pid => pop.tasks.find? fun p => p.1 = pid with
      | none => ⟨[], true⟩
      | some p => ⟨p.2.text path, false⟩
    directory := fun _ => some ⟨names, false, true⟩ }

theorem Population.still (pop : Population) (names : List Bytes) (start stop : Nat) :
    Still (pop.env names) pop start stop := by
  refine ⟨fun _ _ _ => rfl, fun _ _ _ => rfl, fun _ _ _ _ _ _ _ => rfl, ?_⟩
  intro opened t _ _ p hp path hpath
  simp only [Population.env, hpath, Option.bind_some, pop.find hp]

def two (comm : Bytes) (hcomm : comm.length ≤ 15 ∧ 0 ∉ comm) : Population where
  tasks := [(7, plainTask comm hcomm 0 100), (8, shellTask)]
  pids := by simp
  range := by simp [intMax]

def twoNames : List Bytes := [ascii "self", ascii "7", ascii "8"]

theorem two_lists (comm : Bytes) (hcomm : comm.length ≤ 15 ∧ 0 ∉ comm) :
    Lists (two comm hcomm) ⟨twoNames, false, true⟩ := by
  refine ⟨rfl, rfl, [ascii "self"], ?_, by decide +kernel⟩
  have hnames : twoNames.Perm [decimal 7, decimal 8, ascii "self"] := by decide +kernel
  exact hnames

theorem ordinary_listed :
    OneRowEach (two (ascii "old") (by decide))
      ((processListRead ((two (ascii "old") (by decide)).env twoNames)).value 0) := by
  apply (oneRowEach_iff rfl (two_lists _ _) (Population.still _ _ _ _)).mpr
  simp only [two, List.forall_mem_cons]
  refine ⟨⟨by decide, by decide, by decide, by decide⟩,
    ⟨by decide, by decide, by decide, by decide⟩, by simp⟩

/-- A process whose name has a line break, which every process can give itself, is not
in the list. -/
theorem multiline_hides :
    Lists (two (ascii "a\nb") (by decide)) ⟨twoNames, false, true⟩ ∧
      ((processListRead ((two (ascii "a\nb") (by decide)).env twoNames)).value 0).map
        (List.map ProcessRow.pid) = some [8] ∧
      ¬ OneRowEach (two (ascii "a\nb") (by decide))
        ((processListRead ((two (ascii "a\nb") (by decide)).env twoNames)).value 0) := by
  have hpids : ((processListRead ((two (ascii "a\nb") (by decide)).env twoNames)).value 0).map
      (List.map ProcessRow.pid) = some [8] := by decide +kernel
  refine ⟨two_lists _ _, hpids, ?_⟩
  rintro ⟨rows, hrows, heach⟩
  rw [hrows, Option.map_some, Option.some.injEq] at hpids
  have hlength := heach.length_eq
  rw [List.length_map, ← @List.length_map _ _ rows ProcessRow.pid, hpids] at hlength
  simp [two] at hlength

end RookieTop.Completeness
