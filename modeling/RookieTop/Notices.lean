import RookieTop.Views

/-! What the notices of the explorer tell, and what was read before they told it. -/
namespace RookieTop.Notices

open CLib Trace Sys ProcDir ProcessCpu ProcessList CollectOverview Explorer TerminalInput App
  RunInteractive Passes Views

inductive Message where
  | listUnread
  | changed
  | lost
  | lostBefore
  | self
  | stopped (force : Bool) (name : Bytes)
  | permission
  | reused
  | gone
  | unsent

def Message.text : Message → Bytes
  | listUnread => ascii "RookieTop could not read the process list."
  | changed => ascii "The process changed or exited before RookieTop could open it."
  | lost => ascii "The process exited or that PID was reused."
  | lostBefore => ascii "The process exited or that PID now belongs to something else."
  | self => ascii "RookieTop will not stop itself."
  | stopped force name =>
    name ++ if force then ascii " was force-killed with SIGKILL."
      else ascii " was asked to stop cleanly with SIGTERM."
  | permission => ascii "RookieTop cannot stop this process with your current permissions."
  | reused =>
    ascii "That PID now belongs to a different process, so RookieTop cancelled the action."
  | gone => ascii "The process already exited, so there was nothing to stop."
  | unsent => ascii "RookieTop could not send the signal."

def Message.ofResult (force : Bool) (name : Bytes) : SignalResult → Message
  | .ok => stopped force name
  | .permission => permission
  | .reused => reused
  | .gone => gone
  | .error => unsent

def Message.Fits : Message → Prop
  | stopped _ name => Named processListNameMax name
  | _ => True

variable (env : Env)

/-- Between these times a read of the process failed, or gave another start time. The first is
no proof that the process has exited. -/
inductive Unseen (pid : Int) (starttime : UInt64) (start stop : Nat) : Prop
  | unread (time : Nat) (since : start ≤ time) (before : time ≤ stop)
      (unread : (processDetailRead env pid).value time = none) : Unseen pid starttime start stop
  | other (time : Nat) (since : start ≤ time) (before : time ≤ stop) (detail : ProcessDetail)
      (read : (processDetailRead env pid).value time = some detail)
      (other : detail.row.starttime ≠ starttime) : Unseen pid starttime start stop

/-- What came of a confirmation that was answered with yes, for the process on display. Its
process counts as gone where its start time could not be read. -/
inductive Answer (shown : ProcessDetail) (force : Bool) (start stop : Nat) (kills : List KillCall) :
    Message → Prop
  | self (own : shown.row.pid = env.self) (spared : kills = []) :
      Answer shown force start stop kills .self
  | killed (call : KillCall) (sent : kills = [call]) (pid : call.pid = shown.row.pid)
      (starttime : call.starttime = shown.row.starttime) (signal : call.signal = confirmSignal force) :
      Answer shown force start stop kills
        (.ofResult force shown.row.name (killResult (env.kills call.time call.pid call.signal)))
  | gone (time : Nat) (since : start ≤ time) (before : time ≤ stop)
      (unread : (readStarttime env shown.row.pid).value time = none) (spared : kills = []) :
      Answer shown force start stop kills .gone
  | reused (time : Nat) (since : start ≤ time) (before : time ≤ stop) (current : UInt64)
      (read : (readStarttime env shown.row.pid).value time = some current)
      (other : current ≠ shown.row.starttime) (spared : kills = []) :
      Answer shown force start stop kills .reused
  /-- A start time of 0 is taken for none. -/
  | unsent (unknown : shown.row.starttime = 0) (spared : kills = []) :
      Answer shown force start stop kills .unsent

/-- What a pass has to tell, from `state` and between these times. -/
inductive Tells (state : AppState) (start stop : Nat) (pass : Pass) : Message → Prop
  | listUnread (list : state.screen = .processes)
      (unread : (sampleProcessRows env).value (start + 1) = none) (quiet : pass.kills = []) :
      Tells state start stop pass .listUnread
  | changed (list : state.screen = .processes) (frame : Frame) (drawn : pass.frame = some frame)
      (pid : Int) (starttime : UInt64) (chosen : Highlights frame.drawing pid starttime)
      (screen : Screen) (key : (pass.key, screen) ∈ opens)
      (unseen : Unseen env pid starttime frame.time stop) (quiet : pass.kills = []) :
      Tells state start stop pass .changed
  | lost (about : aboutSelected state.screen = true)
      (unseen : Unseen env state.selectedPid state.selectedStarttime start stop)
      (quiet : pass.kills = []) : Tells state start stop pass .lost
  | lostBefore (force : Bool) (about : state.screen = .detail ∨ state.screen = .processLearn)
      (key : pass.key = openKey force) (frame : Frame) (drawn : pass.frame = some frame)
      (unseen : Unseen env state.selectedPid state.selectedStarttime frame.time stop)
      (quiet : pass.kills = []) : Tells state start stop pass .lostBefore
  | answered (force : Bool) (screen : state.screen = confirmScreen force) (frame : Frame)
      (shown : ProcessDetail) (drawn : pass.frame = some frame)
      (drawing : frame.drawing = .confirm shown force) (yes : isYes pass.key) (message : Message)
      (answer : Answer env shown force frame.time stop pass.kills message) :
      Tells state start stop pass message

inductive Leaves (state : AppState) (start stop : Nat) (pass : Pass) : Prop
  | told (message : Message) (tells : Tells env state start stop pass message)
      (notice : pass.state.notice = message.text)
  | cleared (notice : pass.state.notice = []) (quiet : pass.kills = [])
  | kept (notice : pass.state.notice = state.notice) (quiet : pass.kills = [])

theorem Message.text_length {message : Message} (h : message.Fits) :
    message.text.length < noticeSize := by
  cases message with
  | stopped force name =>
    have hname : name.length < 64 := h.fits
    unfold Message.text noticeSize
    rw [List.length_append]
    cases force with
    | false =>
      have htext : (ascii " was asked to stop cleanly with SIGTERM.").length = 40 := by
        decide +kernel
      simp only [Bool.false_eq_true, if_false, htext]
      omega
    | true =>
      have htext : (ascii " was force-killed with SIGKILL.").length = 31 := by decide +kernel
      simp only [if_true, htext]
      omega
  | _ => decide +kernel

theorem setNotice_text {message : Message} (h : message.Fits) (state : AppState) :
    setNotice state message.text = { state with notice := message.text } := by
  have hlength := Message.text_length h
  unfold setNotice snprintf
  rw [List.take_of_length_le (by omega)]

theorem setSignalNotice_eq_setNotice (state : AppState) (result : SignalResult) (force : Bool)
    (name : Bytes) :
    setSignalNotice state result force name =
      setNotice state (Message.ofResult force name result).text := by
  cases result <;> rfl

theorem ofResult_fits {name : Bytes} (h : Named processListNameMax name) (force : Bool)
    (result : SignalResult) : (Message.ofResult force name result).Fits := by
  cases result with
  | ok => exact h
  | _ => trivial

theorem parseStatusLine_named {row row' : ProcessRow} {line : Bytes} (hline : 0 ∉ line)
    (h : parseStatusLine row line = .parsed row') :
    if startsWith line ProcessList.keyName then Named processListNameMax row'.name
    else row'.name = row.name := by
  obtain ⟨-, -, hname⟩ := parseStatusLine_keeps h
  unfold parseStatusLine at h
  split_ifs at h ⊢ with hkey
  · simp only [ProcessList.parseName] at h
    split_ifs at h with hbad
    simp only [not_or, not_le] at hbad
    cases StatusLine.parsed.inj h
    have hspan : strcspn ((line.drop 5).dropWhile isblank) [13, 10] ≤
        ((line.drop 5).dropWhile isblank).length := (List.takeWhile_prefix _).length_le
    have hlength := List.length_take_of_le hspan
    refine ⟨List.ne_nil_of_length_pos ?_, ?_, fun hmem => hline ?_⟩
    · dsimp only
      omega
    · dsimp only
      omega
    · exact List.mem_of_mem_drop ((List.dropWhile_suffix _).subset (List.mem_of_mem_take hmem))
  all_goals exact hname.resolve_right fun hboth => hkey hboth.1

theorem parseStatus_named {pid : Int} {stream : Stream} {row : ProcessRow}
    (h : parseStatus pid stream = some row) : Named processListNameMax row.name := by
  unfold parseStatus at h
  split at h
  · cases h
  · rename_i found hfold
    split_ifs at h with hbad
    simp only [not_or, Bool.not_eq_true, Bool.not_eq_false'] at hbad
    cases Option.some.inj h
    have hstep : ∀ line ∈ (fgetsAll lineMaxLocal stream).map cstr,
        ∀ {s s' : ProcessRow × Bool}, ProcessList.statusStep s line = some s' →
          (s.2 = true → Named processListNameMax s.1.name) →
          (s'.2 = true → Named processListNameMax s'.1.name) := by
      intro line hline s s' hs hnamed
      obtain ⟨raw, -, rfl⟩ := List.mem_map.mp hline
      unfold ProcessList.statusStep at hs
      split at hs
      · cases hs
      · cases Option.some.inj hs
        exact hnamed
      · rename_i row hrow
        cases Option.some.inj hs
        have hparsed := parseStatusLine_named (notMem_cstr raw) hrow
        cases hkey : startsWith (cstr raw) ProcessList.keyName with
        | true =>
          rw [hkey, if_pos rfl] at hparsed
          exact fun _ => hparsed
        | false =>
          rw [hkey, if_neg Bool.false_ne_true] at hparsed
          intro hfound
          dsimp only at hfound ⊢
          rw [hparsed]
          exact hnamed (by simpa [hkey] using hfound)
    have hname := foldlM_keeps_mem hstep hfold (fun hfalse => by cases hfalse)
    exact hname hbad.2

theorem readRow_named {pid : Int} {n : Nat} {row : ProcessRow}
    (h : (readRow env pid).value n = some row) : Named processListNameMax row.name := by
  unfold readRow at h
  simp only [Calls.value_bind] at h
  cases hfile : (readFile env (.pidStatus pid)).value n with
  | none => simp [hfile] at h
  | some file =>
    simp only [hfile] at h
    cases hstatus : parseStatus pid file.1 with
    | none => simp [hstatus] at h
    | some parsed =>
      simp only [hstatus, Calls.value_ite] at h
      split_ifs at h
      · simp only [Calls.value_bind, Calls.value_pure] at h
        obtain ⟨starttime, -, rfl⟩ := Option.map_eq_some_iff.mp h
        exact (parseStatus_named hstatus : Named _ parsed.name)
      · cases h

theorem processDetailRead_named {pid : Int} {n : Nat} {detail : ProcessDetail}
    (h : (processDetailRead env pid).value n = some detail) :
    Named processListNameMax detail.row.name :=
  readRow_named env (processDetailRead_some env h)

section Pass

variable {env} {state : AppState} {consumed start n : Nat}

theorem refreshSelectedDetail_none (h : (refreshSelectedDetail env state).value n = none)
    {stop : Nat} (hstop : n ≤ stop) :
    Unseen env state.selectedPid state.selectedStarttime n stop := by
  unfold refreshSelectedDetail at h
  simp only [Calls.value_bind] at h
  cases hread : (processDetailRead env state.selectedPid).value n with
  | none => exact .unread n (le_refl n) hstop hread
  | some detail =>
    refine .other n (le_refl n) hstop detail hread fun hsame => ?_
    simp only [hread] at h
    rw [if_neg (not_not.mpr hsame)] at h
    cases h

theorem Unseen.since {pid : Int} {starttime : UInt64} {start' stop : Nat}
    (h : Unseen env pid starttime start' stop) (hstart : start ≤ start') :
    Unseen env pid starttime start stop := by
  cases h with
  | unread time since before unread => exact .unread time (hstart.trans since) before unread
  | other time since before detail read other =>
    exact .other time (hstart.trans since) before detail read other

theorem openSelectedDetail_leaves (row : ProcessRow) (screen : Screen) :
    ((openSelectedDetail env state row screen).value n).notice = state.notice ∨
      Unseen env row.pid row.starttime n ((openSelectedDetail env state row screen).after n) ∧
        ((openSelectedDetail env state row screen).value n).notice = Message.changed.text := by
  have hnotice : ∀ state : AppState, (setNotice state Message.changed.text).notice =
      Message.changed.text := fun state => by
    have hfits : Message.changed.Fits := trivial
    rw [setNotice_text hfits]
  have hstop := Calls.le_after (openSelectedDetail env state row screen) n
  generalize (openSelectedDetail env state row screen).after n = stop at hstop ⊢
  unfold openSelectedDetail
  simp only [Calls.value_bind]
  cases hread : (processDetailRead env row.pid).value n with
  | none =>
    exact Or.inr ⟨.unread n (le_refl n) hstop hread, hnotice { state with
      selectedPid := row.pid, selectedStarttime := row.starttime }⟩
  | some detail =>
    dsimp only
    split_ifs with hsame
    · exact Or.inl rfl
    · exact Or.inr ⟨.other n (le_refl n) hstop detail hread hsame, hnotice { state with
        selectedPid := row.pid, selectedStarttime := row.starttime }⟩

theorem openConfirmFromDetail_leaves (force : Bool) :
    ((openConfirmFromDetail env state force).value n).notice = state.notice ∨
      Unseen env state.selectedPid state.selectedStarttime n
          ((openConfirmFromDetail env state force).after n) ∧
        ((openConfirmFromDetail env state force).value n).notice = Message.lostBefore.text := by
  have hstop := Calls.le_after (openConfirmFromDetail env state force) n
  generalize (openConfirmFromDetail env state force).after n = stop at hstop ⊢
  unfold openConfirmFromDetail
  simp only [Calls.value_bind]
  cases hrefresh : (refreshSelectedDetail env state).value n with
  | none =>
    have hfits : Message.lostBefore.Fits := trivial
    refine Or.inr ⟨refreshSelectedDetail_none hrefresh hstop, ?_⟩
    exact congrArg AppState.notice (setNotice_text hfits state)
  | some refreshed =>
    obtain ⟨detail, -, -, -, rfl⟩ := refreshSelectedDetail_some env hrefresh
    exact Or.inl rfl

structure Displayed (shown : ProcessDetail) : Prop where
  pid : 0 < shown.row.pid
  name : Named processListNameMax shown.row.name

theorem handleSignalConfirm_answers {force : Bool} (hshown : Displayed state.selectedDetail)
    (hstart : start ≤ n) :
    ∃ message, Answer env state.selectedDetail force start
        ((handleSignalConfirm env state force).after n)
        ((handleSignalConfirm env state force).value n).2 message ∧
      ((handleSignalConfirm env state force).value n).1.notice = message.text := by
  have hnotice (result : SignalResult) :
      (setSignalNotice state result force state.selectedDetail.row.name).notice =
        (Message.ofResult force state.selectedDetail.row.name result).text := by
    rw [setSignalNotice_eq_setNotice, setNotice_text (ofResult_fits hshown.name force result)]
  have hstop := Calls.le_after (handleSignalConfirm env state force) n
  generalize (handleSignalConfirm env state force).after n = stop at hstop ⊢
  unfold handleSignalConfirm
  dsimp only
  split_ifs with hself
  · have hfits : Message.self.Fits := trivial
    exact ⟨.self, .self hself rfl, congrArg AppState.notice (setNotice_text hfits state)⟩
  · simp only [Calls.value_bind, Calls.value_pure]
    unfold processSendSignal
    have hsignal : ¬ (confirmSignal force ≠ sigterm ∧ confirmSignal force ≠ sigkill) := by
      cases force <;> simp [confirmSignal]
    split_ifs with hbad
    · have hzero : state.selectedDetail.row.starttime = 0 := by
        rcases hbad with h | h | h
        · have hpid := hshown.pid
          omega
        · exact h
        · exact absurd h hsignal
      exact ⟨.unsent, .unsent hzero rfl, hnotice .error⟩
    · simp only [Calls.value_bind]
      cases hread : (readStarttime env state.selectedDetail.row.pid).value n with
      | none => exact ⟨.gone, .gone n hstart hstop hread rfl, hnotice .gone⟩
      | some current =>
        simp only [Calls.value_ite]
        split_ifs with hother
        · exact ⟨.reused, .reused n hstart hstop current hread hother rfl, hnotice .reused⟩
        · exact ⟨_, .killed _ rfl rfl (not_not.mp hother) rfl, hnotice _⟩

end Pass

def Noted (state : AppState) (start : Nat) (pass : Calls Pass) (n : Nat) : Prop :=
  Leaves env state start (pass.after n) (pass.value n)

def Acts (act : AppState → Int → Calls (AppState × List KillCall)) (state : AppState)
    (start : Nat) (draw : ProcessDetail → Drawing) : Prop :=
  ∀ shown frame key consumed t, Displayed shown → frame.drawing = draw shown → frame.time ≤ t →
    Leaves env state start ((act { state with selectedDetail := shown } key).after t)
      ⟨((act { state with selectedDetail := shown } key).value t).1, consumed, some frame, key,
        ((act { state with selectedDetail := shown } key).value t).2, false⟩

section Screens

variable {env} {state : AppState} {consumed start n : Nat}

theorem overviewPass_noted (term : TerminalSize) :
    Noted env state start (overviewPass env term state consumed) n := by
  unfold Noted
  generalize (overviewPass env term state consumed).after n = stop
  unfold overviewPass
  simp only [Calls.value_bind]
  cases hrefresh : (refreshOverview env state).value n with
  | none => exact .kept rfl rfl
  | some refreshed =>
    obtain ⟨view, -, rfl⟩ := refreshOverview_some env hrefresh
    simp only [Calls.value_bind, Calls.value_pure]
    unfold overviewKey
    split_ifs
    · exact .cleared rfl rfl
    · exact .kept rfl rfl
    · exact .kept rfl rfl

theorem plainPass_noted {drawing : Drawing} {act : AppState → Int → AppState}
    (hact : ∀ key, (act state key).notice = [] ∨ (act state key).notice = state.notice)
    (term : TerminalSize) : Noted env state start (plainPass env drawing act term state consumed) n := by
  unfold Noted plainPass
  simp only [Calls.value_bind, Calls.value_pure]
  generalize ((prompt env term drawing consumed).value n).2.1 = key
  rcases hact key with h | h
  · exact .cleared h rfl
  · exact .kept h rfl

theorem searchKey_notice (key : Int) :
    (searchKey state key).notice = [] ∨ (searchKey state key).notice = state.notice := by
  unfold searchKey
  split_ifs
  · exact Or.inl rfl
  · exact Or.inr rfl
  · rw [SearchTyping.editProcessSearch_eq]
    exact Or.inr rfl

theorem learnMenuKey_notice (key : Int) :
    (learnMenuKey state key).notice = [] ∨ (learnMenuKey state key).notice = state.notice := by
  unfold learnMenuKey
  split_ifs <;> exact Or.inr rfl

theorem learnTopicKey_notice (key : Int) :
    (learnTopicKey state key).notice = [] ∨ (learnTopicKey state key).notice = state.notice := by
  unfold learnTopicKey
  split_ifs <;> exact Or.inr rfl

theorem processDetailRead_pos {pid : Int} {detail : ProcessDetail}
    (h : (processDetailRead env pid).value n = some detail) : 0 < detail.row.pid := by
  have hpid := processDetailRead_pid env h
  unfold processDetailRead at h
  split_ifs at h with hbad
  · cases h
  · omega

theorem detailPass_noted {draw : ProcessDetail → Drawing}
    {act : AppState → Int → Calls (AppState × List KillCall)}
    (habout : aboutSelected state.screen = true) (hact : Acts env act state start draw)
    (hstart : start ≤ n) (term : TerminalSize) :
    Noted env state start (detailPass env draw act term state consumed) n := by
  have hstop := Calls.le_after (detailPass env draw act term state consumed) n
  unfold detailPass at hstop
  unfold Noted detailPass
  simp only [Calls.value_bind, Calls.after_bind] at hstop ⊢
  cases hrefresh : (refreshSelectedDetail env state).value n with
  | none =>
    have hfits : Message.lost.Fits := trivial
    rw [hrefresh] at hstop
    exact .told .lost (.lost habout ((refreshSelectedDetail_none hrefresh hstop).since hstart) rfl)
      (congrArg AppState.notice (setNotice_text hfits state))
  | some refreshed =>
    obtain ⟨shown, hread, -, -, rfl⟩ := refreshSelectedDetail_some env hrefresh
    have hframe := Calls.le_after (prompt env term (draw shown) consumed)
      ((refreshSelectedDetail env state).after n)
    simp only [Calls.value_bind, Calls.after_bind, Calls.value_pure, Calls.after_pure]
    exact hact shown _ _ _ _ ⟨processDetailRead_pos hread, processDetailRead_named env hread⟩ rfl
      hframe

theorem asking_leaves (force : Bool) {shown : ProcessDetail} {pass : Pass} {frame : Frame} {t : Nat}
    (habout : state.screen = .detail ∨ state.screen = .processLearn)
    (hkey : pass.key = openKey force) (hframe : pass.frame = some frame) (htime : frame.time ≤ t)
    (hpass : pass.state =
      (openConfirmFromDetail env { state with selectedDetail := shown } force).value t)
    (hquiet : pass.kills = []) :
    Leaves env state start
      ((openConfirmFromDetail env { state with selectedDetail := shown } force).after t) pass := by
  have hleaves := @openConfirmFromDetail_leaves env { state with selectedDetail := shown } t force
  rw [← hpass] at hleaves
  rcases hleaves with hkept | ⟨hunseen, hnotice⟩
  · exact .kept hkept hquiet
  · refine .told .lostBefore ?_ hnotice
    exact .lostBefore force habout hkey frame hframe (hunseen.since htime) hquiet

theorem detailKey_acts (hscreen : state.screen = .detail) :
    Acts env (detailKey env) state start .detail := by
  intro shown frame key consumed t _ _ htime
  unfold detailKey
  split_ifs with hlearn hterm hkill hback
  · exact .kept rfl rfl
  · simp only [Calls.after_bind, Calls.after_pure]
    exact asking_leaves false (Or.inl hscreen) hterm rfl htime rfl rfl
  · simp only [Calls.after_bind, Calls.after_pure]
    exact asking_leaves true (Or.inl hscreen) hkill rfl htime rfl rfl
  · exact .kept rfl rfl
  · exact .kept rfl rfl

theorem processLearnKey_acts (hscreen : state.screen = .processLearn) :
    Acts env (processLearnKey env) state start .processLearning := by
  intro shown frame key consumed t _ _ htime
  unfold processLearnKey
  split_ifs with hterm hkill hback
  · simp only [Calls.after_bind, Calls.after_pure]
    exact asking_leaves false (Or.inr hscreen) hterm rfl htime rfl rfl
  · simp only [Calls.after_bind, Calls.after_pure]
    exact asking_leaves true (Or.inr hscreen) hkill rfl htime rfl rfl
  · exact .kept rfl rfl
  · exact .kept rfl rfl

theorem confirmKey_acts {force : Bool} (hscreen : state.screen = confirmScreen force) :
    Acts env (confirmKey env force) state start (.confirm · force) := by
  intro shown frame key consumed t hshown hdrawing htime
  unfold confirmKey
  split_ifs with hyes hno
  · obtain ⟨message, hanswer, hnotice⟩ := @handleSignalConfirm_answers env
      { state with selectedDetail := shown } frame.time t force hshown htime
    refine .told message ?_ hnotice
    refine .answered force hscreen frame shown ?_ hdrawing ?_ message hanswer
    · rfl
    · exact hyes
  · exact .kept rfl rfl
  · exact .kept rfl rfl

theorem noticeSampled_leaves {sampled : Option (List ProcessRow)} {pass : Pass} {stop : Nat}
    (hlist : state.screen = .processes)
    (hsampled : (sampleProcessRows env).value (start + 1) = sampled)
    (hnotice : pass.state.notice = (noticeSampled state sampled).notice)
    (hquiet : pass.kills = []) : Leaves env state start stop pass := by
  cases sampled with
  | none =>
    have hfits : Message.listUnread.Fits := trivial
    exact .told .listUnread (.listUnread hlist hsampled hquiet)
      (hnotice.trans (congrArg AppState.notice (setNotice_text hfits state)))
  | some rows => exact .kept hnotice hquiet

theorem processesKey_leaves {aligned : AppState} {rows : List ProcessRow} {frame : Frame}
    {total consumed t : Nat} {key : Int} (hlist : state.screen = .processes)
    (hdrawing : frame.drawing = .processes rows total aligned) (htime : frame.time ≤ t)
    (hsame : ∀ pass : Pass, pass.state.notice = aligned.notice → pass.kills = [] →
      Leaves env state start ((processesKey env aligned rows key).after t) pass) :
    Leaves env state start ((processesKey env aligned rows key).after t)
      ⟨(processesKey env aligned rows key).value t, consumed, some frame, key, [], false⟩ := by
  have hpress := processesKey_press env aligned rows key
  generalize processesKey env aligned rows key = act at hpress hsame ⊢
  cases hpress with
  | arrow i _ =>
    obtain ⟨selected, pid, starttime, hselect⟩ := selectAt_eq aligned rows i
    have hselected : (selectAt aligned rows i).notice = aligned.notice := by rw [hselect]
    exact hsame _ hselected rfl
  | opens screen hmem =>
    unfold openAt at hsame ⊢
    cases hrow : rows[aligned.selected]? with
    | none =>
      rw [hrow] at hsame
      exact hsame _ rfl rfl
    | some row =>
      rw [hrow] at hsame
      have hchosen : Highlights frame.drawing row.pid row.starttime := by
        unfold Highlights highlighted
        rw [hdrawing]
        dsimp only
        rw [hrow]
        rfl
      rcases openSelectedDetail_leaves row screen with hopened | ⟨hunseen, hnotice⟩
      · exact hsame _ hopened rfl
      · refine .told .changed ?_ hnotice
        refine .changed hlist frame ?_ row.pid row.starttime hchosen screen hmem
          (hunseen.since htime) ?_
        · rfl
        · rfl
  | search _ => exact hsame _ rfl rfl
  | sort _ => exact hsame _ rfl rfl
  | menu => exact hsame _ rfl rfl
  | back => exact hsame _ rfl rfl
  | none => exact hsame _ rfl rfl

theorem processesPass_noted (hlist : state.screen = .processes) (term : TerminalSize) :
    Noted env state start (processesPass env term state consumed) (start + 1) := by
  unfold Noted processesPass showProcesses
  simp only [Calls.value_bind, Calls.after_bind, Calls.value_pure, Calls.after_pure]
  generalize hsampled : (sampleProcessRows env).value (start + 1) = sampled
  generalize shownRows env (noticeSampled state sampled) (sampled.getD []) = rows
  obtain ⟨selected, pid, starttime, haligned⟩ :=
    alignSelection_eq (noticeSampled state sampled) rows
  have hkept : (alignSelection (noticeSampled state sampled) rows).notice =
      (noticeSampled state sampled).notice := by rw [haligned]
  refine processesKey_leaves hlist rfl (Calls.le_after _ _) fun pass hpass hquiet => ?_
  exact noticeSampled_leaves hlist hsampled (hpass.trans hkept) hquiet

theorem loopPass_noted : Noted env state n (loopPass env state consumed) n := by
  have hscreens : Noted env state n (screenPass env (env.window n) state consumed) (n + 1) := by
    have hstart := Nat.le_succ n
    unfold screenPass
    cases hscreen : state.screen with
    | overview => exact overviewPass_noted _
    | processes => exact processesPass_noted hscreen _
    | processSearch => exact plainPass_noted searchKey_notice _
    | learnMenu => exact plainPass_noted learnMenuKey_notice _
    | learnTopic => exact plainPass_noted learnTopicKey_notice _
    | detail => exact detailPass_noted (by rw [hscreen]; rfl) (detailKey_acts hscreen) hstart _
    | processLearn =>
      exact detailPass_noted (by rw [hscreen]; rfl) (processLearnKey_acts hscreen) hstart _
    | confirmTerm =>
      exact detailPass_noted (by rw [hscreen]; rfl) (@confirmKey_acts env state n false hscreen)
        hstart _
    | confirmKill =>
      exact detailPass_noted (by rw [hscreen]; rfl) (@confirmKey_acts env state n true hscreen)
        hstart _
  unfold Noted loopPass at *
  simpa only [Calls.value_bind, Calls.after_bind, Calls.value_call, Calls.after_call] using hscreens

end Screens

def TellsAt (n : Nat) (message : Message) : Prop :=
  ∃ pass, passAt env n = some pass ∧
    Tells env (runInteractive env n).state (runInteractive env n).now (runInteractive env (n + 1)).now
      pass message

/-- A notice on display is about the last thing of which there was one to give. -/
def Reason (n : Nat) : Prop :=
  (runInteractive env n).state.notice = [] ∨ ∃ m < n, ∃ message, TellsAt env m message ∧
    ∀ j, m < j → j ≤ n → (runInteractive env j).state.notice = message.text

structure Explained (n : Nat) : Prop where
  reason : Reason env n
  /-- What came of a signal is told at once, of the process that was on display. -/
  signal : ∀ pass call, passAt env n = some pass → call ∈ pass.kills →
    ∃ frame shown force, pass.frame = some frame ∧ frame.drawing = .confirm shown force ∧
      call.pid = shown.row.pid ∧ call.starttime = shown.row.starttime ∧
      call.signal = confirmSignal force ∧
      (runInteractive env (n + 1)).state.notice =
        (Message.ofResult force shown.row.name
          (killResult (env.kills call.time call.pid call.signal))).text

theorem passAt_leaves {n : Nat} {pass : Pass} (h : passAt env n = some pass) :
    Leaves env (runInteractive env n).state (runInteractive env n).now
      (runInteractive env (n + 1)).now pass := by
  obtain ⟨hvalue, -, -, hnow⟩ := passAt_some env h
  rw [hnow, hvalue]
  exact loopPass_noted

theorem Reason.kept {n : Nat} (h : Reason env n)
    (hsame : (runInteractive env (n + 1)).state.notice = (runInteractive env n).state.notice) :
    Reason env (n + 1) := by
  rcases h with hnone | ⟨m, hm, message, htells, hsince⟩
  · exact Or.inl (hsame.trans hnone)
  · refine Or.inr ⟨m, Nat.lt_succ_of_lt hm, message, htells, fun j hj hjn => ?_⟩
    rcases Nat.lt_or_eq_of_le hjn with hlt | rfl
    · exact hsince j hj (Nat.le_of_lt_succ hlt)
    · exact hsame.trans (hsince n hm (le_refl n))

theorem reason (n : Nat) : Reason env n := by
  induction n with
  | zero => exact Or.inl rfl
  | succ n ih =>
    cases hpass : passAt env n with
    | none => exact ih.kept env (congrArg AppState.notice (passAt_none env hpass).1)
    | some pass =>
      have hstate := (passAt_some env hpass).2.1
      cases passAt_leaves env hpass with
      | told message tells notice =>
        refine Or.inr ⟨n, Nat.lt_succ_self n, message, ⟨pass, hpass, tells⟩, fun j hj hjn => ?_⟩
        have hlast : j = n + 1 := by omega
        rw [hlast, hstate]
        exact notice
      | cleared notice _ => exact Or.inl (hstate ▸ notice)
      | kept notice _ => exact ih.kept env (hstate ▸ notice)

end RookieTop.Notices
