import RookieTop.Signal

/-! What the result of the guarded `kill` says about the process, while the pid keeps its
holder. Whatever keeps the start time from being read is reported as a process that is
gone. -/
namespace RookieTop.Verdict

open CLib Trace Sys ProcDir ProcessCpu ProcessList Kernel Lives

variable (m : Machine) (base : Env) (pid : Int) (starttime : UInt64) (signal : Int) (n : Nat)

/-- The pid keeps its holder, or has none, up to the call of `kill`. -/
def Unchanged : Prop := ∀ t, n ≤ t → t ≤ n + 3 → m.tasks.holder t pid = m.tasks.holder n pid

/-- Each result is given for its own reason only. -/
structure Truthful : Prop where
  ok : ((processSendSignal (m.env base) pid starttime signal).value n).1 = .ok →
    ∃ call inst, ((processSendSignal (m.env base) pid starttime signal).value n).2 = some call ∧
      call.pid = pid ∧ call.signal = signal ∧
      (m.env base).kills call.time call.pid call.signal = none ∧
      m.tasks.holder (n + 1) pid = some inst ∧ m.tasks.stamp inst = starttime
  reused : ((processSendSignal (m.env base) pid starttime signal).value n).1 = .reused →
    ((processSendSignal (m.env base) pid starttime signal).value n).2 = none ∧
      ∃ inst, m.tasks.holder n pid = some inst ∧ m.tasks.stamp inst ≠ starttime
  permission : ((processSendSignal (m.env base) pid starttime signal).value n).1 = .permission →
    ∃ call inst, ((processSendSignal (m.env base) pid starttime signal).value n).2 = some call ∧
      (m.env base).kills call.time call.pid call.signal = some .eperm ∧
      m.tasks.holder call.time pid = some inst ∧ m.tasks.stamp inst = starttime
  gone : ((processSendSignal (m.env base) pid starttime signal).value n).1 = .gone →
    m.tasks.holder n pid = none

structure StatRead (inst : Nat) : Prop where
  opens : base.opens n (.pidStat pid) = true
  reads : (base.content n (n + 1) (.pidStat pid)).error = false
  closes : base.closes (n + 2) = true
  parses : (m.task (n + 1) inst).StatReadable

section Reading

variable {m pid n} {inst : Nat}

theorem readStarttime_unheld (h : m.tasks.holder n pid = none) :
    (readStarttime (m.env base) pid).value n = none := by
  have hopens : (m.env base).opens n (.pidStat pid) = false := by
    simp [Machine.env, pidOf, h]
  rw [readStarttime_value, hopens]
  simp

theorem readStarttime_held (hopened : m.tasks.holder n pid = some inst)
    (hread : m.tasks.holder (n + 1) pid = some inst) (h : StatRead m base pid n inst) :
    (readStarttime (m.env base) pid).value n = some (m.tasks.stamp inst) := by
  obtain ⟨hpid, hmax⟩ := m.pid_range hread
  have hopens : (m.env base).opens n (.pidStat pid) = true := by
    simp [Machine.env, pidOf, hopened, h.opens]
  have hcloses : (m.env base).closes (n + 2) = true := h.closes
  have hcontent : (m.env base).content n (n + 1) (.pidStat pid) =
      ⟨(m.task (n + 1) inst).statText pid, false⟩ := by
    simp [Machine.env, pidOf, Machine.stream, hopened, hread, h.reads, Task.text]
  rw [readStarttime_value, if_pos ⟨hopens, hcloses⟩, hcontent]
  rcases (m.task (n + 1) inst).parseStatStream_statText hpid hmax with ⟨-, hparse⟩ | ⟨hnot, -⟩
  · rw [hparse, Option.map_some, ← m.starttime (n + 1) inst]
  · exact absurd h.parses hnot

theorem statRead_of_some {start : UInt64} (hopened : m.tasks.holder n pid = some inst)
    (h : (readStarttime (m.env base) pid).value n = some start) : StatRead m base pid n inst := by
  rw [readStarttime_value] at h
  split_ifs at h with hopen
  obtain ⟨stat, hstat, -⟩ := Option.map_eq_some_iff.mp h
  have hopens : base.opens n (.pidStat pid) = true := by
    have hboth : (base.opens n (.pidStat pid) && _) = true := hopen.1
    exact (Bool.and_eq_true_iff.mp hboth).1
  have hcontent : (m.env base).content n (n + 1) (.pidStat pid) =
      if m.tasks.holder (n + 1) pid = some inst ∧ !(base.content n (n + 1) (.pidStat pid)).error then
        ⟨(m.task (n + 1) inst).statText pid, false⟩
      else ⟨[], true⟩ := by
    simp [Machine.env, pidOf, Machine.stream, hopened, Task.text]
  rw [hcontent] at hstat
  split_ifs at hstat with hread
  · obtain ⟨hpid, hmax⟩ := m.pid_range hread.1
    have herror : (base.content n (n + 1) (.pidStat pid)).error = false := by simpa using hread.2
    rcases (m.task (n + 1) inst).parseStatStream_statText hpid hmax with ⟨hparses, -⟩ | ⟨-, hnone⟩
    · exact ⟨hopens, herror, hopen.2, hparses⟩
    · cases hnone.symm.trans hstat
  · cases hstat

end Reading

/-- Only a process that is gone, or whose start time is known and whom `kill` does not
take for gone, is reported as it is. -/
def Told : Prop :=
  ∀ inst, m.tasks.holder n pid = some inst → StatRead m base pid n inst ∧
    ¬ (m.tasks.stamp inst = starttime ∧ base.kills (n + 3) pid signal = some .esrch)

theorem processSendSignal_value (hpid : 0 < pid) (hstart : starttime ≠ 0)
    (hsignal : signal = sigterm ∨ signal = sigkill) :
    (processSendSignal base pid starttime signal).value n =
      match (readStarttime base pid).value n with
      | none => (.gone, none)
      | some current =>
        if current ≠ starttime then (.reused, none)
        else (killResult (base.kills (n + 3) pid signal), some ⟨n + 3, pid, signal, current⟩) := by
  have hargs : ¬ (pid ≤ 0 ∨ starttime = 0 ∨ (signal ≠ sigterm ∧ signal ≠ sigkill)) := by
    rintro (h | h | h)
    · omega
    · exact hstart h
    · exact hsignal.elim h.1 h.2
  unfold processSendSignal
  rw [if_neg hargs, Calls.value_bind]
  cases hread : (readStarttime base pid).value n with
  | none => rfl
  | some current =>
    have hafter : (readStarttime base pid).after n = n + 3 := by
      rw [readStarttime_after, readStarttime_opens base hread, if_pos rfl]
    dsimp only
    rw [hafter, Calls.value_ite]
    split_ifs
    · rfl
    · rfl

theorem killResult_ok {answer : Option Errno} (h : killResult answer = .ok) : answer = none := by
  cases answer with
  | none => rfl
  | some errno => cases errno <;> cases h

theorem killResult_permission {answer : Option Errno} (h : killResult answer = .permission) :
    answer = some .eperm := by
  cases answer with
  | none => cases h
  | some errno => cases errno <;> first | rfl | cases h

theorem killResult_gone {answer : Option Errno} (h : killResult answer = .gone) :
    answer = some .esrch := by
  cases answer with
  | none => cases h
  | some errno => cases errno <;> first | rfl | cases h

theorem killResult_not_reused (answer : Option Errno) : killResult answer ≠ .reused := by
  cases answer with
  | none => simp [killResult]
  | some errno => cases errno <;> simp [killResult]

section Calls

variable {m base pid starttime signal n} {inst : Nat}

theorem kills_held (h : m.tasks.holder n pid = some inst) :
    (m.env base).kills n pid signal = base.kills n pid signal := by
  simp [Machine.env, h]

theorem truthful_of_unheld (h : m.tasks.holder n pid = none)
    (hvalue : (processSendSignal (m.env base) pid starttime signal).value n = (.gone, none)) :
    Truthful m base pid starttime signal n := by
  constructor <;> rw [hvalue]
  · exact fun hok => by cases hok
  · exact fun hreused => by cases hreused
  · exact fun hpermission => by cases hpermission
  · exact fun _ => h

theorem truthful_of_other (h : m.tasks.holder n pid = some inst)
    (hother : m.tasks.stamp inst ≠ starttime)
    (hvalue : (processSendSignal (m.env base) pid starttime signal).value n = (.reused, none)) :
    Truthful m base pid starttime signal n := by
  constructor <;> rw [hvalue]
  · exact fun hok => by cases hok
  · exact fun _ => ⟨rfl, inst, h, hother⟩
  · exact fun hpermission => by cases hpermission
  · exact fun hgone => by cases hgone

theorem truthful_of_match (hread : m.tasks.holder (n + 1) pid = some inst)
    (hkill : m.tasks.holder (n + 3) pid = some inst) (hstamp : m.tasks.stamp inst = starttime)
    (hesrch : base.kills (n + 3) pid signal ≠ some .esrch)
    (hvalue : (processSendSignal (m.env base) pid starttime signal).value n =
      (killResult (base.kills (n + 3) pid signal), some ⟨n + 3, pid, signal, starttime⟩)) :
    Truthful m base pid starttime signal n := by
  have hkills := @kills_held m base pid signal (n + 3) inst hkill
  constructor <;> rw [hvalue]
  · intro hok
    exact ⟨_, inst, rfl, rfl, rfl, hkills.trans (killResult_ok hok), hread, hstamp⟩
  · exact fun hreused => absurd hreused (killResult_not_reused _)
  · intro hpermission
    exact ⟨_, inst, rfl, hkills.trans (killResult_permission hpermission), hkill, hstamp⟩
  · exact fun hgone => absurd (killResult_gone hgone) hesrch

end Calls

/-- While the pid keeps its holder, the results tell the truth just when the start time of
the holder can be read and `kill` does not deny that it exists. -/
theorem truthful_iff (hpid : 0 < pid) (hstart : starttime ≠ 0)
    (hsignal : signal = sigterm ∨ signal = sigkill) (hsame : Unchanged m pid n) :
    Truthful m base pid starttime signal n ↔ Told m base pid starttime signal n := by
  have hvalue := processSendSignal_value (m.env base) pid starttime signal n hpid hstart hsignal
  unfold Told
  cases hholder : m.tasks.holder n pid with
  | none =>
    rw [readStarttime_unheld base hholder] at hvalue
    constructor
    · intro _ inst hinst
      cases hinst
    · exact fun _ => truthful_of_unheld hholder hvalue
  | some inst =>
    have hread : m.tasks.holder (n + 1) pid = some inst :=
      (hsame (n + 1) (by omega) (by omega)).trans hholder
    have hkill : m.tasks.holder (n + 3) pid = some inst :=
      (hsame (n + 3) (by omega) (by omega)).trans hholder
    rw [kills_held hkill] at hvalue
    constructor
    · intro htruthful held hheld
      cases hheld
      have hnotgone : ((processSendSignal (m.env base) pid starttime signal).value n).1 ≠ .gone := by
        intro hgone
        rw [htruthful.gone hgone] at hholder
        cases hholder
      cases hstarttime : (readStarttime (m.env base) pid).value n with
      | none =>
        rw [hstarttime] at hvalue
        rw [hvalue] at hnotgone
        exact absurd rfl hnotgone
      | some current =>
        have hstat := statRead_of_some base hholder hstarttime
        refine ⟨hstat, ?_⟩
        rintro ⟨hstamp, hesrch⟩
        rw [readStarttime_held base hholder hread hstat] at hvalue
        dsimp only at hvalue
        rw [if_neg (not_not.mpr hstamp), hesrch] at hvalue
        rw [hvalue] at hnotgone
        exact hnotgone rfl
    · intro htold
      obtain ⟨hstat, hesrch⟩ := htold inst rfl
      rw [readStarttime_held base hholder hread hstat] at hvalue
      dsimp only at hvalue
      split_ifs at hvalue with hother
      · exact truthful_of_other hholder hother hvalue
      · rw [not_not] at hother
        rw [hother] at hvalue
        exact truthful_of_match hread hkill hother (fun h => hesrch ⟨hother, h⟩) hvalue

theorem lasting_unchanged : Unchanged lastingMachine 7 0 := by
  intro t _ ht
  interval_cases t <;> decide +kernel

theorem lasting_truthful : Truthful lastingMachine calm 7 100 sigterm 0 := by
  apply (truthful_iff lastingMachine calm 7 100 sigterm 0 (by decide) (by decide) (Or.inl rfl)
    lasting_unchanged).mpr
  intro inst hinst
  have hfirst : lastingMachine.tasks.holder 0 7 = some 0 := by decide +kernel
  cases hfirst.symm.trans hinst
  refine ⟨⟨rfl, rfl, rfl, by decide, by decide, by decide⟩, fun h => ?_⟩
  cases h.2

/-- Nothing changes, but no file can be opened, for want of descriptors. -/
def starved : Env := { calm with opens := fun _ _ => false }

/-- The process that is reported as gone is there. -/
theorem starved_lies :
    Unchanged lastingMachine 7 0 ∧ lastingMachine.tasks.holder 0 7 = some 0 ∧
      (processSendSignal (lastingMachine.env starved) 7 100 sigterm).value 0 = (.gone, none) ∧
      ¬ Truthful lastingMachine starved 7 100 sigterm 0 := by
  have hholder : lastingMachine.tasks.holder 0 7 = some 0 := by decide +kernel
  have hvalue : (processSendSignal (lastingMachine.env starved) 7 100 sigterm).value 0 =
      (.gone, none) := by decide +kernel
  refine ⟨lasting_unchanged, hholder, hvalue, fun h => ?_⟩
  have hnone := h.gone (by rw [hvalue])
  rw [hholder] at hnone
  cases hnone

end RookieTop.Verdict
