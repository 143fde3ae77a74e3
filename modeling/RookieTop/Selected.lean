import RookieTop.Lives
import RookieTop.Passes

/-! What is drawn of the selected process, while pids are given to new processes at
any moment. A status file is read between two readings of one start time, and so it
is the status of the instance with that start time. -/
namespace RookieTop.Selected

open CLib Trace Sys ProcessList App RunInteractive Passes Kernel Lives

variable (m : Machine) (base : Env)

/-- Name, state, thread count and memory of the row are what the status file of the
instance said at that time. -/
structure StatusOf (inst time : Nat) (row : ProcessRow) : Prop where
  held : m.tasks.holder time row.pid = some inst
  read : ∃ parsed,
    parseStatus row.pid ⟨(m.task time inst).text (.pidStatus row.pid), false⟩ = some parsed ∧
    row.name = parsed.name ∧ row.state = parsed.state ∧ row.threads = parsed.threads ∧
    row.rssKib = parsed.rssKib

def Seen (n : Nat) (pid : Int) (starttime : UInt64) : Prop :=
  ∃ t < n, m.tasks.Reads t pid starttime

theorem Seen.mono {m : Machine} {a b : Nat} {pid : Int} {starttime : UInt64}
    (h : Seen m a pid starttime) (hab : a ≤ b) : Seen m b pid starttime := by
  obtain ⟨t, ht, hreads⟩ := h
  exact ⟨t, by omega, hreads⟩

/-- A row that was read has a status of the instance that held the pid when the status file was
opened, and the start time of the one that held it when the stat file was. -/
theorem readRow_holders {pid : Int} {n : Nat} {row : ProcessRow}
    (h : (readRow (m.env base) pid).value n = some row) :
    ∃ inst later, m.tasks.holder n pid = some inst ∧ StatusOf m inst (n + 1) row ∧
      m.tasks.holder (n + 3) pid = some later ∧ m.tasks.holder (n + 4) pid = some later ∧
      m.tasks.stamp later = row.starttime := by
  obtain ⟨-, parsed, starttime, hparse, hstart, rfl⟩ := readRow_some (m.env base) h
  obtain ⟨inst, hopened, hheld, hstatus⟩ := m.readStatus_some base hparse
  obtain ⟨later, hlater, hread, hstamp⟩ := m.readStarttime_some base hstart
  have hpid := parseStatus_pid hparse
  refine ⟨inst, later, hopened, ⟨?_, parsed, ?_, rfl, rfl, rfl, rfl⟩, hlater, hread, hstamp⟩
  · rw [← hpid] at hheld
    exact hheld
  · rw [← hpid] at hstatus
    exact hstatus

theorem readRow_reads {pid : Int} {n : Nat} {row : ProcessRow}
    (h : (readRow (m.env base) pid).value n = some row) :
    (∃ inst, StatusOf m inst (n + 1) row) ∧ m.tasks.Reads (n + 4) pid row.starttime := by
  obtain ⟨inst, later, -, hstatus, -, hread, hstamp⟩ := readRow_holders m base h
  exact ⟨⟨inst, hstatus⟩, later, hread, hstamp⟩

theorem detail_reads {pid : Int} {n : Nat} {detail : ProcessDetail}
    (h : (processDetailRead (m.env base) pid).value n = some detail) :
    Seen m ((processDetailRead (m.env base) pid).after n) pid detail.row.starttime := by
  have hle := processDetailRead_after_le (m.env base) h
  have hreads := (readRow_reads m base (processDetailRead_some (m.env base) h)).2
  exact ⟨n + 4, by omega, hreads⟩

/-- A screen about the selected process is only reached after its start time was read. -/
def SelectionSeen (s : Session) : Prop :=
  aboutSelected s.state.screen = true → Seen m s.now s.state.selectedPid s.state.selectedStarttime

theorem selectionSeen_of_pass {n : Nat} {pass : Pass} (h : passAt (m.env base) n = some pass)
    (hseen : SelectionSeen m (runInteractive (m.env base) n)) :
    SelectionSeen m (runInteractive (m.env base) (n + 1)) := by
  obtain ⟨-, hstate, -, hnow⟩ := passAt_some (m.env base) h
  have hlater := Calls.le_after (loopPass (m.env base) (runInteractive (m.env base) n).state
    (runInteractive (m.env base) n).consumed) (runInteractive (m.env base) n).now
  unfold SelectionSeen at hseen ⊢
  rw [hstate, hnow]
  intro habout
  have houtcome := passAt_outcome (m.env base) h
  cases houtcome with
  | apart screens _ _ =>
    rw [screens.1] at habout
    cases habout
  | opened frame rows total aligned row screen t _ _ _ _ _ _ result ends =>
    have hopened := openSelectedDetail_opened (m.env base) aligned row screen t
    rw [← result] at hopened
    have hscreen : ((openSelectedDetail (m.env base) aligned row screen).value t).screen ≠
        .processes := by
      rw [← result]
      intro hlist
      rw [hlist] at habout
      cases habout
    obtain ⟨detail, hread, hstart, hle⟩ := openSelectedDetail_read (m.env base) hscreen
    rw [hopened.pid, hopened.starttime, ← hstart, ← ends]
    exact (detail_reads m base hread).mono hle
  | acted refreshed frame about refresh _ _ _ acts =>
    have hstays := (passAt_outcome (m.env base) h).stays about habout
    rw [hstays.1, hstays.2]
    exact (hseen about).mono hlater

theorem selectionSeen (n : Nat) : SelectionSeen m (runInteractive (m.env base) n) := by
  induction n with
  | zero => exact fun h => by cases h
  | succ n ih =>
    cases hpass : passAt (m.env base) n with
    | none =>
      obtain ⟨hstate, hnow⟩ := passAt_none (m.env base) hpass
      unfold SelectionSeen at ih ⊢
      rw [hstate, hnow]
      exact ih
    | some pass => exact selectionSeen_of_pass m base hpass ih

/-- Whatever a pass draws of a process is about the selected one: it has the selected
pid, and its status was read in this pass from the instance with the selected start
time. -/
structure ShowsSelected (s : Session) (frame : Frame) (shown : ProcessDetail) : Prop where
  pid : shown.row.pid = s.state.selectedPid
  starttime : shown.row.starttime = s.state.selectedStarttime
  status : ∃ inst time, s.now ≤ time ∧ time < frame.time ∧ StatusOf m inst time shown.row ∧
    m.tasks.stamp inst = s.state.selectedStarttime

theorem shown_is_selected {n : Nat} {pass : Pass} (h : passAt (m.env base) n = some pass)
    {frame : Frame} (hframe : pass.frame = some frame) {shown : ProcessDetail}
    (hshown : shownDetail frame.drawing = some shown) :
    ShowsSelected m (runInteractive (m.env base) n) frame shown := by
  cases passAt_outcome (m.env base) h with
  | apart _ _ drawn =>
    rw [drawn frame hframe] at hshown
    cases hshown
  | opened frame' rows total aligned _ _ _ _ drawn' drawing' =>
    cases Option.some.inj (hframe.symm.trans drawn')
    rw [drawing'] at hshown
    cases hshown
  | acted refreshed frame' about refresh drawn' flushed drawing' =>
    cases Option.some.inj (hframe.symm.trans drawn')
    obtain ⟨detail, hread, hpid, hstart, rfl⟩ := refreshSelectedDetail_some (m.env base) refresh
    rw [drawing', shownDetail_drawSelected] at hshown
    cases Option.some.inj hshown
    refine ⟨hpid, hstart, ?_⟩
    have hrow := processDetailRead_some (m.env base) hread
    have hafter := processDetailRead_after_le (m.env base) hread
    have hrefresh := @refreshSelectedDetail_after_le (m.env base)
      (runInteractive (m.env base) n).state ((runInteractive (m.env base) n).now + 1)
    obtain ⟨⟨inst, hstatus⟩, hreads⟩ := readRow_reads m base hrow
    refine ⟨inst, _, ?_, ?_, hstatus, ?_⟩
    · omega
    · omega
    · -- The start time was read before this pass and again behind the status file.
      obtain ⟨t, ht, hseen⟩ := selectionSeen m base n about
      rw [hstart] at hreads
      have hbetween := m.tasks.reads_between
        (b := (runInteractive (m.env base) n).now + 1 + 1) (by omega) (by omega) hseen hreads
      rw [← hpid] at hbetween
      exact m.tasks.reads_unique ⟨inst, hstatus.held, rfl⟩ hbetween

theorem stopping_shows_selected :
    ∃ pass frame shown, passAt (lastingMachine.env stopping) 2 = some pass ∧
      pass.frame = some frame ∧ shownDetail frame.drawing = some shown ∧ shown.row.pid = 7 ∧
      ShowsSelected lastingMachine (runInteractive (lastingMachine.env stopping) 2) frame shown := by
  have hpid : ((passAt (lastingMachine.env stopping) 2).bind fun pass =>
      pass.frame.bind fun frame => (shownDetail frame.drawing).map fun shown =>
        shown.row.pid) = some 7 := by decide +kernel
  obtain ⟨pass, hpass, hpid⟩ := Option.bind_eq_some_iff.mp hpid
  obtain ⟨frame, hframe, hpid⟩ := Option.bind_eq_some_iff.mp hpid
  obtain ⟨shown, hshown, hpid⟩ := Option.map_eq_some_iff.mp hpid
  exact ⟨pass, frame, shown, hpass, hframe, hshown, hpid,
    shown_is_selected lastingMachine stopping hpass hframe hshown⟩

end RookieTop.Selected
