import RookieTop.StatLine
import RookieTop.StatusText
import RookieTop.Trace.Occupancy

/-! Linux, as far as the program sees it through `/proc`: instances of processes that
hold a pid for a stretch of time, and the texts of their files. -/
namespace RookieTop.Kernel

open CLib Trace Sys ProcDir ProcessCpu ProcessList StatLine StatusText

structure Task where
  comm : Bytes
  fields : Fields
  rest : List Token
  status : List StatusField
  cmdline : Bytes
  comm_short : comm.length ≤ 15
  comm_nul : 0 ∉ comm
  /-- Twenty words of at most twenty bytes. -/
  fields_short : fields.text.length ≤ 420

namespace Task

def starttime (t : Task) : UInt64 := t.fields.starttime

def ticks (t : Task) : Nat := t.fields.utime.toNat + t.fields.stime.toNat

def statText (t : Task) (pid : Int) : Bytes :=
  opening pid.toNat t.comm ++ 41 :: (t.fields.text ++ renderTokens t.rest ++ [10])

def text (t : Task) : Path → Bytes
  | .pidStat pid => t.statText pid
  | .pidStatus _ => statusText t.comm t.status
  | .pidCmdline _ => t.cmdline
  | _ => []

end Task

/-- Which instance holds which pid, and what is printed of it. -/
structure Machine where
  tasks : Occupancy Int Nat UInt64
  task : Nat → Nat → Task
  starttime : ∀ time inst, (task time inst).starttime = tasks.stamp inst
  pid_range : ∀ {time pid inst}, tasks.holder time pid = some inst → 0 < pid ∧ pid ≤ intMax

def pidOf : Path → Option Int
  | .pidStat pid | .pidStatus pid | .pidCmdline pid => some pid
  | _ => none

namespace Machine

variable (m : Machine) (base : Env)

/-- Reading a file at a time after it was opened. The file belongs to the instance that
held the pid when it was opened, and can only be read while that instance lives. -/
def stream (opened n : Nat) (pid : Int) (path : Path) : Stream :=
  match m.tasks.holder opened pid with
  | none => ⟨[], true⟩
  | some inst =>
    if m.tasks.holder n pid = some inst ∧ !(base.content opened n path).error then
      ⟨(m.task n inst).text path, false⟩
    else ⟨[], true⟩

/-- The machine as the program meets it. All else, and every failure, is as in `base`. -/
def env : Env :=
  { base with
    opens := fun n path =>
      base.opens n path && ((pidOf path).all fun pid => (m.tasks.holder n pid).isSome)
    content := fun opened n path =>
      match pidOf path with
      | none => base.content opened n path
      | some pid => m.stream base opened n pid path
    kills := fun n pid signal =>
      match m.tasks.holder n pid with
      | none => some .esrch
      | some _ => base.kills n pid signal }

end Machine

theorem ticks_overflow (utime stime : UInt64) :
    uint64Max - utime < stime ↔ 2 ^ 64 ≤ utime.toNat + stime.toNat := by
  have hmax : utime ≤ uint64Max := by
    rw [UInt64.le_iff_toNat_le]
    exact Nat.le_of_lt_succ utime.toNat_lt
  have hlt := utime.toNat_lt
  rw [UInt64.lt_iff_toNat_lt, UInt64.toNat_sub_of_le _ _ hmax]
  have : uint64Max.toNat = 2 ^ 64 - 1 := rfl
  omega

namespace Task

variable (t : Task)

theorem ends_rest {n : Nat} (hn : 0 < n) : Ends (takeLine n (renderTokens t.rest ++ [10])).1 := by
  obtain ⟨n, rfl⟩ : ∃ k, n = k + 1 := ⟨n - 1, by omega⟩
  cases t.rest with
  | nil => exact stops_cons.mpr rfl
  | cons w tokens =>
    rw [renderTokens_cons]
    exact stops_cons.mpr rfl

theorem clean_rest {n : Nat} {b : UInt8} (h : b ∈ (takeLine n (renderTokens t.rest ++ [10])).1) :
    b ≠ 41 ∧ b ≠ 0 := by
  rcases List.mem_append.mp (mem_of_mem_takeLine h) with hb | hb
  · exact (clean_renderTokens hb).2
  · rw [List.mem_singleton] at hb
    subst hb
    decide

theorem fgets_statText {pid : Int} (hmax : pid ≤ intMax) (hpid : 0 < pid) (hline : 10 ∉ t.comm) :
    ∃ tail rest, Ends tail ∧ (∀ b ∈ tail, b ≠ 41 ∧ b ≠ 0) ∧
      fgets procStatLineMax ⟨t.statText pid, false⟩ =
        some (opening pid.toNat t.comm ++ 41 :: (t.fields.text ++ tail), rest) := by
  have hhead : 10 ∉ opening pid.toNat t.comm ++ 41 :: t.fields.text := by
    have hopening := @notMem_opening pid.toNat _ _ (Or.inl rfl) hline
    have hfields : 10 ∉ t.fields.text := fun h => (t.fields.clean h).1 rfl
    simp [hopening, hfields]
  have hlen : (opening pid.toNat t.comm ++ 41 :: t.fields.text).length ≤ 448 := by
    have hopening := @opening_length pid.toNat (by omega) t.comm
    have hcomm := t.comm_short
    have hfields := t.fields_short
    rw [List.length_append, List.length_cons]
    omega
  have htext : t.statText pid = (opening pid.toNat t.comm ++ 41 :: t.fields.text) ++
      (renderTokens t.rest ++ [10]) := by simp [statText]
  have htake := takeLine_append_left (n := procStatLineMax - 1) (renderTokens t.rest ++ [10]) hhead
    (by unfold procStatLineMax; omega)
  rw [← htext] at htake
  have hfgets := @fgets_eq_takeLine procStatLineMax (t.statText pid) (by rw [htake]; simp)
  rw [htake, List.append_assoc, List.cons_append] at hfgets
  exact ⟨_, _, t.ends_rest (by unfold procStatLineMax; omega), fun b hb => t.clean_rest hb, hfgets⟩

theorem parseStatStream_of_notMem {pid : Int} (hpid : 0 < pid) (hmax : pid ≤ intMax)
    (hline : 10 ∉ t.comm) :
    parseStatStream ⟨t.statText pid, false⟩ =
      if t.comm = [] ∨ 2 ^ 64 ≤ t.ticks then none
      else some ⟨pid, t.comm, t.fields.utime + t.fields.stime, t.starttime⟩ := by
  obtain ⟨tail, rest, hends, hclean, hfgets⟩ := t.fgets_statText hmax hpid hline
  have hnul : 0 ∉ opening pid.toNat t.comm ++ 41 :: (t.fields.text ++ tail) := by
    have hopening := @notMem_opening pid.toNat _ _ (Or.inr rfl) t.comm_nul
    have hfields : 0 ∉ t.fields.text := fun h => (t.fields.clean h).2.2 rfl
    have htail : 0 ∉ tail := fun h => (hclean 0 h).2 rfl
    simp [hopening, hfields, htail]
  have hclose : 41 ∉ t.fields.text ++ tail := by
    have hfields : 41 ∉ t.fields.text := fun h => (t.fields.clean h).2.1 rfl
    have htail : 41 ∉ tail := fun h => (hclean 41 h).1 rfl
    simp [hfields, htail]
  have hshort : ¬ processCpuNameMax ≤ t.comm.length := by
    have := t.comm_short
    unfold processCpuNameMax
    omega
  rw [parseStatStream, hfgets, Option.bind_some, cstr_eq_self hnul,
    processCpuParseStat_line (by omega) (by omega) t.comm hclose, t.fields.scan hends, statOf,
    Int.toNat_of_nonneg (by omega)]
  by_cases hempty : t.comm = [] <;>
    simp [hempty, hshort, ticks_overflow, ticks, starttime]

theorem parseStatStream_of_mem {pid : Int} (hpid : 0 < pid) (hmax : pid ≤ intMax)
    (hline : 10 ∈ t.comm) : parseStatStream ⟨t.statText pid, false⟩ = none := by
  obtain ⟨name, more, hcomm, hname⟩ := List.eq_append_cons_of_mem hline
  have hshort := t.comm_short
  have hnul := t.comm_nul
  rw [hcomm, List.length_append, List.length_cons] at hshort
  have hzero : 0 ∉ name := fun h => hnul (hcomm ▸ List.mem_append_left _ h)
  have htext : t.statText pid = opening pid.toNat name ++
      10 :: (more ++ 41 :: (t.fields.text ++ renderTokens t.rest ++ [10])) := by
    simp [statText, opening, hcomm]
  have hlen := @opening_length pid.toNat (by omega) name
  have hcstr : cstr (opening pid.toNat name ++ [10]) = opening pid.toNat name ++ [10] :=
    cstr_eq_self (by simp [notMem_opening (Or.inr rfl) hzero])
  rw [parseStatStream, htext, fgets_newline (notMem_opening (Or.inl rfl) hname)
    (by unfold procStatLineMax; omega), Option.bind_some, hcstr]
  exact processCpuParseStat_cut (by omega) (by omega) (by omega)

/-- The parser accepts the stat file of an instance: its name is one line and not empty,
and its ticks have a sum. -/
def StatReadable : Prop := t.comm ≠ [] ∧ 10 ∉ t.comm ∧ t.ticks < 2 ^ 64

/-- What is read back from a stat file is what the kernel has put there, if anything. -/
theorem parseStatStream_statText {pid : Int} (hpid : 0 < pid) (hmax : pid ≤ intMax) :
    (t.StatReadable ∧ parseStatStream ⟨t.statText pid, false⟩ =
        some ⟨pid, t.comm, t.fields.utime + t.fields.stime, t.starttime⟩) ∨
      (¬ t.StatReadable ∧ parseStatStream ⟨t.statText pid, false⟩ = none) := by
  unfold StatReadable
  by_cases hline : 10 ∈ t.comm
  · exact Or.inr ⟨fun h => h.2.1 hline, t.parseStatStream_of_mem hpid hmax hline⟩
  · rw [t.parseStatStream_of_notMem hpid hmax hline]
    by_cases hbad : t.comm = [] ∨ 2 ^ 64 ≤ t.ticks
    · refine Or.inr ⟨?_, if_pos hbad⟩
      rintro ⟨hne, -, hlt⟩
      exact hbad.elim hne fun h => by omega
    · refine Or.inl ⟨?_, if_neg hbad⟩
      simp only [not_or, not_le] at hbad
      exact ⟨hbad.1, hline, hbad.2⟩

def stat (pid : Int) : ProcessCpuStat :=
  ⟨pid, t.comm, t.fields.utime + t.fields.stime, t.starttime⟩

end Task

namespace Machine

variable (m : Machine) (base : Env)

theorem stream_cases (opened n : Nat) (pid : Int) (path : Path) :
    m.stream base opened n pid path = ⟨[], true⟩ ∨
      ∃ inst, m.tasks.holder opened pid = some inst ∧ m.tasks.holder n pid = some inst ∧
        m.stream base opened n pid path = ⟨(m.task n inst).text path, false⟩ := by
  unfold stream
  cases hopened : m.tasks.holder opened pid with
  | none => exact Or.inl rfl
  | some inst =>
    dsimp only
    split_ifs with h
    · exact Or.inr ⟨inst, rfl, h.1, rfl⟩
    · exact Or.inl rfl

/-- A stat record tells the truth about the instance that held the pid all the while. -/
theorem readProcessStat_some {pid : Int} {n : Nat} {stat : ProcessCpuStat}
    (h : (readProcessStat (m.env base) pid).value n = some stat) :
    ∃ inst, m.tasks.holder n pid = some inst ∧ m.tasks.holder (n + 1) pid = some inst ∧
      (m.task (n + 1) inst).StatReadable ∧ stat = (m.task (n + 1) inst).stat pid := by
  rw [readProcessStat_value] at h
  split_ifs at h
  rcases m.stream_cases base n (n + 1) pid (.pidStat pid) with hfault | ⟨inst, hopened, hread, heq⟩
  · rw [show (m.env base).content n (n + 1) (.pidStat pid) = ⟨[], true⟩ from hfault] at h
    cases h
  · rw [show (m.env base).content n (n + 1) (.pidStat pid) = _ from heq] at h
    obtain ⟨hpid, hmax⟩ := m.pid_range hread
    rcases (m.task (n + 1) inst).parseStatStream_statText hpid hmax with ⟨hok, hparse⟩ | ⟨-, hparse⟩
    · exact ⟨inst, hopened, hread, hok, Option.some.inj (h.symm.trans hparse)⟩
    · exact absurd (h.symm.trans hparse) (by simp)

theorem readStarttime_some {pid : Int} {n : Nat} {starttime : UInt64}
    (h : (readStarttime (m.env base) pid).value n = some starttime) :
    ∃ inst, m.tasks.holder n pid = some inst ∧ m.tasks.holder (n + 1) pid = some inst ∧
      m.tasks.stamp inst = starttime := by
  rw [readStarttime_value] at h
  split_ifs at h with hopen
  obtain ⟨stat, hstat, rfl⟩ := Option.map_eq_some_iff.mp h
  have hvalue : (readProcessStat (m.env base) pid).value n = some stat := by
    rw [readProcessStat_value, if_pos hopen, hstat]
  obtain ⟨inst, hopened, hread, -, rfl⟩ := m.readProcessStat_some base hvalue
  exact ⟨inst, hopened, hread, (m.starttime (n + 1) inst).symm⟩

theorem readStatus_some {pid : Int} {n : Nat} {row : ProcessRow}
    (h : parseStatus pid ((m.env base).content n (n + 1) (.pidStatus pid)) = some row) :
    ∃ inst, m.tasks.holder n pid = some inst ∧ m.tasks.holder (n + 1) pid = some inst ∧
      parseStatus pid ⟨(m.task (n + 1) inst).text (.pidStatus pid), false⟩ = some row := by
  rcases m.stream_cases base n (n + 1) pid (.pidStatus pid) with hfault | ⟨inst, hopened, hread, heq⟩
  · rw [show (m.env base).content n (n + 1) (.pidStatus pid) = ⟨[], true⟩ from hfault] at h
    cases h
  · rw [show (m.env base).content n (n + 1) (.pidStatus pid) = _ from heq] at h
    exact ⟨inst, hopened, hread, h⟩

end Machine

end RookieTop.Kernel
