import RookieTop.Selected
import RookieTop.Signal

/-! Which process a row is about, while pids are given to new processes at any moment. A row is
put together from two files that are opened one after the other, and a detail from three. -/
namespace RookieTop.OneProcess

open CLib Trace Sys ProcDir ProcessList Kernel Lives

open Selected (StatusOf readRow_holders)

variable (m : Machine) (base : Env)

/-- A row read from time `n` on has its status and its start time from this instance. -/
structure RowOf (inst n : Nat) (row : ProcessRow) : Prop where
  status : StatusOf m inst (n + 1) row
  held : m.tasks.holder (n + 4) row.pid = some inst
  starttime : m.tasks.stamp inst = row.starttime

structure CmdlineRead (inst n : Nat) (pid : Int) : Prop where
  opened : m.tasks.holder n pid = some inst
  held : m.tasks.holder (n + 1) pid = some inst
  opens : base.opens n (.pidCmdline pid) = true
  sound : (base.content n (n + 1) (.pidCmdline pid)).error = false
  closes : base.closes (n + 2) = true

/-- A detail has its command from this instance, too: it shows the command line of the instance,
or, where none can be read, the name. -/
structure DetailOf (inst n : Nat) (detail : ProcessDetail) : Prop extends
    RowOf m inst n detail.row where
  command : CmdlineRead m base inst (n + 6) detail.row.pid ∧
        detail.command = commandOr detail.row (parseCmdline processCmdlineMax
          ⟨(m.task (n + 7) inst).text (.pidCmdline detail.row.pid), false⟩) ∨
    (∀ other, ¬ CmdlineRead m base other (n + 6) detail.row.pid) ∧
        detail.command = commandOr detail.row none

def KeptForRow (pid : Int) (n : Nat) : Prop :=
  ∀ inst other, m.tasks.holder n pid = some inst → m.tasks.holder (n + 3) pid = some other →
    other = inst

/-- No command line, an empty one included, is read but that of the process whose status has been
read. -/
def KeptForCommand (pid : Int) (n : Nat) : Prop :=
  ∀ inst other, m.tasks.holder n pid = some inst → CmdlineRead m base other (n + 6) pid →
    other = inst

theorem rowOf_iff {pid : Int} {n : Nat} {row : ProcessRow}
    (h : (readRow (m.env base) pid).value n = some row) :
    (∃ inst, RowOf m inst n row) ↔ KeptForRow m pid n := by
  have hpid := (readRow_keeps (m.env base) h).1
  obtain ⟨inst, later, hopened, hstatus, hlater, hread, hstamp⟩ := readRow_holders m base h
  constructor
  · rintro ⟨one, hone⟩ first other hfirst hother
    have hsame : one = inst := Option.some.inj (hone.status.held.symm.trans hstatus.held)
    have hheld := hone.held
    rw [hpid, hread] at hheld
    rw [hopened] at hfirst
    rw [hlater] at hother
    rw [← Option.some.inj hfirst, ← Option.some.inj hother, ← hsame]
    exact Option.some.inj hheld
  · intro hkept
    have hsame := hkept inst later hopened hlater
    subst hsame
    refine ⟨later, hstatus, ?_, hstamp⟩
    rw [hpid]
    exact hread

theorem readCmdline_value (env : Env) (pid : Int) (cap n : Nat) :
    (readCmdline env pid cap).value n =
      if env.opens n (.pidCmdline pid) ∧ env.closes (n + 2) then
        parseCmdline cap (env.content n (n + 1) (.pidCmdline pid))
      else none := by
  unfold readCmdline
  simp only [Calls.value_bind, readFile_value]
  cases env.opens n (.pidCmdline pid) with
  | false => simp
  | true => cases env.closes (n + 2) <;> simp

theorem readCmdline_cases (pid : Int) (n : Nat) :
    (∃ inst, CmdlineRead m base inst n pid ∧
      (readCmdline (m.env base) pid processCmdlineMax).value n = parseCmdline processCmdlineMax
        ⟨(m.task (n + 1) inst).text (.pidCmdline pid), false⟩) ∨
    (∀ inst, ¬ CmdlineRead m base inst n pid) ∧
      (readCmdline (m.env base) pid processCmdlineMax).value n = none := by
  by_cases hreads : ∃ inst, CmdlineRead m base inst n pid
  · obtain ⟨inst, hread⟩ := hreads
    refine Or.inl ⟨inst, hread, ?_⟩
    have hopens : (m.env base).opens n (.pidCmdline pid) = true := by
      simp [Machine.env, pidOf, hread.opens, hread.opened]
    have hcontent : (m.env base).content n (n + 1) (.pidCmdline pid) =
        ⟨(m.task (n + 1) inst).text (.pidCmdline pid), false⟩ := by
      simp [Machine.env, pidOf, Machine.stream, hread.opened, hread.held, hread.sound]
    rw [readCmdline_value, if_pos ⟨hopens, hread.closes⟩, hcontent]
  · rw [not_exists] at hreads
    refine Or.inr ⟨hreads, ?_⟩
    rw [readCmdline_value]
    split_ifs with hopen
    · -- A file that was opened and closed was not read: the stream is at fault.
      have hopens := Bool.and_eq_true_iff.mp hopen.1
      have hfault : m.stream base n (n + 1) pid (.pidCmdline pid) = ⟨[], true⟩ := by
        unfold Machine.stream
        cases hholder : m.tasks.holder n pid with
        | none => rfl
        | some inst =>
          refine if_neg fun hlives => hreads inst ⟨hholder, hlives.1, hopens.1, ?_, hopen.2⟩
          simpa using hlives.2
      rw [show (m.env base).content n (n + 1) (.pidCmdline pid) = ⟨[], true⟩ from hfault]
      rfl
    · rfl

theorem processDetailRead_command {env : Env} {pid : Int} {n : Nat} {detail : ProcessDetail}
    (h : (processDetailRead env pid).value n = some detail) :
    detail.command =
      commandOr detail.row ((readCmdline env pid processCmdlineMax).value (n + 6)) := by
  have hrow := processDetailRead_some env h
  have hafter := readRow_after env hrow
  unfold processDetailRead at h
  split_ifs at h
  · cases h
  · simp only [Calls.value_bind, hrow, hafter, Calls.value_pure, Option.some.injEq] at h
    rw [← h]

theorem detailOf_iff {pid : Int} {n : Nat} {detail : ProcessDetail}
    (h : (processDetailRead (m.env base) pid).value n = some detail) :
    (∃ inst, DetailOf m base inst n detail) ↔ KeptForRow m pid n ∧ KeptForCommand m base pid n := by
  have hrow := processDetailRead_some (m.env base) h
  have hpid := (readRow_keeps (m.env base) hrow).1
  obtain ⟨inst, -, hopened, hstatus, -⟩ := readRow_holders m base hrow
  have hunique : ∀ one, RowOf m one n detail.row → one = inst := fun one hone =>
    Option.some.inj (hone.status.held.symm.trans hstatus.held)
  constructor
  · rintro ⟨one, hone⟩
    refine ⟨(rowOf_iff m base hrow).mp ⟨one, hone.toRowOf⟩, fun first other hfirst hother => ?_⟩
    rw [hopened] at hfirst
    rw [← Option.some.inj hfirst, ← hunique one hone.toRowOf]
    rcases hone.command with ⟨hread, -⟩ | ⟨hnone, -⟩
    · rw [hpid] at hread
      exact Option.some.inj (hother.opened.symm.trans hread.opened)
    · rw [hpid] at hnone
      exact absurd hother (hnone other)
  · rintro ⟨hkept, hcommand⟩
    obtain ⟨one, hone⟩ := (rowOf_iff m base hrow).mpr hkept
    refine ⟨one, hone, ?_⟩
    rw [processDetailRead_command h, hpid]
    rcases readCmdline_cases m base pid (n + 6) with ⟨other, hread, hvalue⟩ | ⟨hnone, hvalue⟩
    · have hsame : other = one := (hcommand inst other hopened hread).trans (hunique one hone).symm
      subst hsame
      exact Or.inl ⟨hread, by rw [hvalue]⟩
    · exact Or.inr ⟨hnone, by rw [hvalue]⟩

/-- Every row of a list and every detail describes one process just where its pid is not taken by
another process before the last of its files is opened. -/
theorem one_process_iff (n : Nat) :
    (∀ rows, (processListRead (m.env base)).value n = some rows →
      ∃ dir visits, (m.env base).directory n = some dir ∧
        Visits (readRow (m.env base)) dir.names n ((processListRead (m.env base)).after n) visits ∧
        rows = records (readRow (m.env base)) visits ∧
        ∀ v ∈ visits, ∀ row, (readRow (m.env base) v.1).value v.2 = some row →
          ((∃ inst, RowOf m inst v.2 row) ↔ KeptForRow m v.1 v.2)) ∧
    ∀ pid detail, (processDetailRead (m.env base) pid).value n = some detail →
      ((∃ inst, DetailOf m base inst n detail) ↔
        KeptForRow m pid n ∧ KeptForCommand m base pid n) := by
  constructor
  · intro rows hrows
    obtain ⟨dir, visits, hdir, hvisits, hrecords⟩ := scanProc_some hrows
    exact ⟨dir, visits, hdir, hvisits, hrecords, fun v _ row => rowOf_iff m base⟩
  · exact fun pid detail => detailOf_iff m base

/-- Pid 7 is given to a new process while the old one is being read. The detail has the name of
the old process, and start time and command line of the new one. -/
theorem reused_mixed :
    ∃ detail, (processDetailRead (Signal.reuseMachine.env calm) 7).value 0 = some detail ∧
      detail.row.name = ascii "old" ∧ detail.row.starttime = 200 ∧ detail.command = ascii "new" ∧
      ¬ ∃ inst, RowOf Signal.reuseMachine inst 0 detail.row := by
  have hread : (processDetailRead (Signal.reuseMachine.env calm) 7).value 0 =
      some ⟨{ emptyRow 7 with name := ascii "old", starttime := 200 }, ascii "new"⟩ := by
    decide +kernel
  refine ⟨_, hread, rfl, rfl, rfl, ?_⟩
  rw [rowOf_iff Signal.reuseMachine calm (processDetailRead_some _ hread)]
  intro hkept
  exact absurd (hkept 0 1 (by decide +kernel) (by decide +kernel)) (by decide)

end RookieTop.OneProcess
