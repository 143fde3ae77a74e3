import RookieTop.Kernel

/-! Machines given by the lives of their processes: each life is one instance that
holds its pid from its birth until its death. -/
namespace RookieTop.Lives

open CLib Trace Sys ProcDir StatLine StatusText Kernel

structure Life where
  pid : Int
  born : Nat
  dies : Nat
  task : Nat → Task
  starttime : UInt64
  task_starttime : ∀ time, (task time).starttime = starttime
  pid_range : 0 < pid ∧ pid ≤ intMax

def Life.holds (l : Life) (time : Nat) (pid : Int) : Bool :=
  l.pid == pid && decide (l.born ≤ time) && decide (time < l.dies)

def Life.Apart (a b : Life) : Prop :=
  a.pid = b.pid → (a.dies ≤ b.born ∨ b.dies ≤ a.born) ∧ a.starttime ≠ b.starttime

theorem Life.holds_iff (l : Life) (time : Nat) (pid : Int) :
    l.holds time pid = true ↔ l.pid = pid ∧ l.born ≤ time ∧ time < l.dies := by
  simp [Life.holds, and_assoc]

def holder (lives : List Life) (time : Nat) (pid : Int) : Option Nat :=
  lives.findIdx? fun l => l.holds time pid

theorem holder_some {lives : List Life} {time : Nat} {pid : Int} {i : Nat}
    (h : holder lives time pid = some i) :
    ∃ l, lives[i]? = some l ∧ l.pid = pid ∧ l.born ≤ time ∧ time < l.dies := by
  obtain ⟨hi, hholds, -⟩ := List.findIdx?_eq_some_iff_getElem.mp h
  exact ⟨lives[i], List.getElem?_eq_getElem hi, (Life.holds_iff _ _ _).mp hholds⟩

section

variable {lives : List Life} (hapart : lives.Pairwise Life.Apart)

include hapart

theorem eq_of_holds {i j time : Nat} {pid : Int} (hi : i < lives.length) (hj : j < lives.length)
    (h : lives[i].holds time pid = true) (h' : lives[j].holds time pid = true) : i = j := by
  rw [Life.holds_iff] at h h'
  rw [List.pairwise_iff_getElem] at hapart
  rcases Nat.lt_trichotomy i j with hlt | heq | hlt
  · have := (hapart i j hi hj hlt (h.1.trans h'.1.symm)).1
    omega
  · exact heq
  · have := (hapart j i hj hi hlt (h'.1.trans h.1.symm)).1
    omega

theorem holder_of_holds {i time : Nat} {pid : Int} (hi : i < lives.length)
    (h : lives[i].holds time pid = true) : holder lives time pid = some i := by
  cases hholder : holder lives time pid with
  | none =>
    have := List.findIdx?_eq_none_iff.mp hholder lives[i] (List.getElem_mem hi)
    rw [this] at h
    cases h
  | some j =>
    obtain ⟨hj, hholds, -⟩ := List.findIdx?_eq_some_iff_getElem.mp hholder
    rw [eq_of_holds hapart hj hi hholds h]

end

/-- The start time of an instance; places behind the list are never held. -/
def stamp (lives : List Life) (i : Nat) : UInt64 := ((lives[i]?).map Life.starttime).getD 0

def occupancy (lives : List Life) (hapart : lives.Pairwise Life.Apart) :
    Occupancy Int Nat UInt64 where
  holder := holder lives
  stamp := stamp lives
  contiguous := by
    intro a b c pid i hab hbc ha hc
    obtain ⟨l, hl, hpid, hborn, -⟩ := holder_some ha
    obtain ⟨l', hl', -, -, hdies⟩ := holder_some hc
    cases Option.some.inj (hl.symm.trans hl')
    obtain ⟨hi, rfl⟩ := List.getElem?_eq_some_iff.mp hl
    exact holder_of_holds hapart hi ((Life.holds_iff _ _ _).mpr ⟨hpid, by omega, by omega⟩)
  stamp_inj := by
    intro a b pid i j ha hb hstamp
    obtain ⟨l, hl, hpid, -⟩ := holder_some ha
    obtain ⟨l', hl', hpid', -⟩ := holder_some hb
    obtain ⟨hi, rfl⟩ := List.getElem?_eq_some_iff.mp hl
    obtain ⟨hj, rfl⟩ := List.getElem?_eq_some_iff.mp hl'
    rw [List.pairwise_iff_getElem] at hapart
    simp only [stamp, hl, hl', Option.map_some, Option.getD_some] at hstamp
    rcases Nat.lt_trichotomy i j with hlt | heq | hlt
    · exact absurd hstamp (hapart i j hi hj hlt (hpid.trans hpid'.symm)).2
    · exact heq
    · exact absurd hstamp.symm (hapart j i hj hi hlt (hpid'.trans hpid.symm)).2

def zeroToken : Token := ⟨[48], by decide, List.forall_mem_singleton.mpr (by decide)⟩

def plainFields (utime starttime : UInt64) : Fields where
  state := ⟨[83], by decide, List.forall_mem_singleton.mpr (by decide)⟩
  ids := List.replicate 10 zeroToken
  utime := utime
  stime := 0
  sched := List.replicate 6 zeroToken
  starttime := starttime
  ten := rfl
  six := rfl

theorem plainFields_short (utime starttime : UInt64) :
    (plainFields utime starttime).text.length ≤ 420 := by
  have hutime := StatusField.decimal_length utime
  have hstart := StatusField.decimal_length starttime
  have hstime : (decimal (0 : UInt64).toNat).length = 1 := by decide
  have hids : (renderTokens ((plainFields utime starttime).state ::
      (plainFields utime starttime).ids)).length = 22 := rfl
  have hsched : (renderTokens (plainFields utime starttime).sched).length = 12 := rfl
  simp only [Fields.text, List.length_append, List.length_cons, hids, hsched]
  simp only [plainFields, hstime]
  omega

def plainTask (comm : Bytes) (hcomm : comm.length ≤ 15 ∧ 0 ∉ comm) (utime starttime : UInt64) :
    Task where
  comm := comm
  fields := plainFields utime starttime
  rest := []
  status := []
  cmdline := comm
  comm_short := hcomm.1
  comm_nul := hcomm.2
  fields_short := plainFields_short utime starttime

def taskOf (lives : List Life) (time i : Nat) : Task :=
  match lives[i]? with
  | none => plainTask [] (by decide) 0 0
  | some l => l.task time

def machine (lives : List Life) (hapart : lives.Pairwise Life.Apart) : Machine where
  tasks := occupancy lives hapart
  task := taskOf lives
  starttime := by
    intro time i
    unfold taskOf
    cases h : lives[i]? with
    | none => simp [occupancy, stamp, h, plainTask, Task.starttime, plainFields]
    | some l => simp [occupancy, stamp, h, l.task_starttime time]
  pid_range := by
    intro time pid i h
    obtain ⟨l, -, rfl, -⟩ := holder_some h
    exact l.pid_range

theorem machine_pid_unique (lives : List Life) (hapart : lives.Pairwise Life.Apart) {a b inst : Nat}
    {p q : Int} (h : (machine lives hapart).tasks.holder a p = some inst)
    (h' : (machine lives hapart).tasks.holder b q = some inst) : p = q := by
  obtain ⟨l, hl, rfl, -⟩ := holder_some h
  obtain ⟨l', hl', rfl, -⟩ := holder_some h'
  rw [Option.some.inj (hl.symm.trans hl')]

def calm : Env :=
  { Env.idle with
    opens := fun _ _ => true
    kills := fun _ _ _ => none }

def meminfoText : Bytes :=
  ascii "MemTotal: 100 kB\nMemAvailable: 50 kB\nSwapTotal: 0 kB\nSwapFree: 0 kB\n"

/-- A machine at whose terminal the program runs: time passes as idle ticks, `/proc`
lists `names`, and the keys of `typed` arrive at their times. -/
def attended (names : List Bytes) (typed : List (Nat × UInt8)) : Env :=
  { calm with
    opens := fun _ path => decide (path ≠ .netDev)
    content := fun _ n path =>
      match path with
      | .stat => ⟨ascii "cpu 0 0 0 " ++ decimal n ++ [10], false⟩
      | .meminfo => ⟨meminfoText, false⟩
      | _ => ⟨[], false⟩
    directory := fun _ => some ⟨names, false, true⟩
    typed := fun k => typed[k]? }

def oldLife (dies : Nat) : Life :=
  ⟨7, 0, dies, fun _ => plainTask (ascii "old") (by decide) 0 100, 100, fun _ => rfl, by decide⟩

def shellTask : Task := plainTask (ascii "shell") (by decide) 0 50

def shellLife : Life := ⟨8, 0, 1000, fun _ => shellTask, 50, fun _ => rfl, by decide⟩

def lastingMachine : Machine := machine [oldLife 1000] (by simp)

/-- A user who opens the list of processes, asks to stop the first one and confirms,
each time after having seen the screen. -/
def stopping : Env := attended [ascii "7"] [(30, 112), (60, 107), (82, 121)]

end RookieTop.Lives
