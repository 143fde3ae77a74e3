import RookieTop.Drawn
import RookieTop.ControlCodes
import RookieTop.Selection

/-! Where the texts of a frame come from, over whole runs: as long as no file and no name of the
machine has a control code, no frame has one either. -/
namespace RookieTop.Contained

open CLib Text Trace Sys Tables ProcDir Host Process ProcessCpu ProcessList CollectOverview Explorer ProcessQuery
  TerminalInput App RunInteractive Passes Render Drawn

/-- No control codes, but for the NUL between the words of a command line. -/
def PlainFile (bytes : Bytes) : Prop := ∀ b ∈ bytes, b = 0 ∨ harmless b = true

/-- Whatever the machine tells, it tells without control codes. -/
structure PlainAnswers (env : Env) : Prop where
  content : ∀ opened read path, PlainFile (env.content opened read path).bytes
  hostname : ∀ n, ∀ name ∈ env.hostname n, PlainFile name
  release : ∀ n, ∀ name ∈ env.uname n, PlainFile name

theorem PlainFile.sub {bytes part : Bytes} (h : PlainFile bytes) (hsub : part ⊆ bytes) :
    PlainFile part := fun b hb => h b (hsub hb)

theorem PlainFile.of_plain {text : Bytes} (h : Plain text) : PlainFile text :=
  fun b hb => Or.inr (h b hb)

theorem PlainFile.cstr {bytes : Bytes} (h : PlainFile bytes) : Plain (cstr bytes) := by
  intro b hb
  refine (h b ((List.takeWhile_prefix _).subset hb)).resolve_left fun hnul => ?_
  have hstop := List.mem_takeWhile_imp hb
  rw [hnul] at hstop
  cases hstop

theorem plain_line {size : Nat} {stream : Stream} (h : PlainFile stream.bytes) {line : Bytes}
    (hline : line ∈ (fgetsAll size stream).map CLib.cstr) : Plain line := by
  obtain ⟨raw, hraw, rfl⟩ := List.mem_map.mp hline
  exact (h.sub (infix_of_mem_fgetsAll hraw).subset).cstr

theorem plain_nameOf {line name : Bytes} (h : Plain line) (hname : ControlCodes.NameOf line name) :
    Plain name := by
  refine h.sub fun b hb => ?_
  have hspan := (List.takeWhile_prefix _).subset (hname hb)
  exact List.mem_of_mem_drop ((List.dropWhile_suffix _).subset hspan)

theorem plain_loop {State : Type} {step : State → Bytes → Option State} {name : State → Bytes}
    (hstep : ∀ {s s' line}, step s line = some s' →
      name s' = name s ∨ startsWith line ProcessList.keyName = true ∧ ControlCodes.NameOf line (name s'))
    {size : Nat} {stream : Stream} (h : PlainFile stream.bytes) {s s' : State}
    (hloop : ((fgetsAll size stream).map cstr).foldlM step s = some s') (hs : Plain (name s)) :
    Plain (name s') := by
  refine foldlM_keeps_mem (P := fun s => Plain (name s)) (fun line hline t t' ht hplain => ?_) hloop hs
  rcases hstep ht with hsame | ⟨-, hname⟩
  · rw [hsame]
    exact hplain
  · exact plain_nameOf (plain_line h hline) hname

theorem parseStatus_plain {pid : Int} {stream : Stream} {row : ProcessRow}
    (h : parseStatus pid stream = some row) (hstream : PlainFile stream.bytes) : Plain row.name := by
  unfold parseStatus at h
  split at h
  · cases h
  · rename_i hloop
    obtain ⟨-, h⟩ := Option.ite_none_left_eq_some.mp h
    cases Option.some.inj h
    exact @plain_loop _ _ (fun found => found.1.name) ControlCodes.explorer_name _ _ hstream _ _
      hloop plain_nil

theorem processParseStatus_plain {stream : Stream} {pid : Int} {process : ProcessInfo}
    (h : processParseStatus stream pid = some process) (hstream : PlainFile stream.bytes) :
    Plain process.name := by
  unfold processParseStatus at h
  split_ifs at h
  split at h
  · cases h
  · rename_i hloop
    obtain ⟨-, h⟩ := Option.ite_none_left_eq_some.mp h
    cases Option.some.inj h
    exact @plain_loop _ _ (fun found => found.1.name) ControlCodes.overview_name _ _ hstream _ _
      hloop plain_nil

theorem parseStat_plain {line : Bytes} {stat : ProcessCpuStat}
    (h : processCpuParseStat line = some stat) (hline : Plain line) : Plain stat.name := by
  obtain ⟨opening, closing, -, hstat⟩ := StatCounters.processCpuParseStat_eq_some_iff.mp h
  obtain ⟨utime, stime, starttime, -, -, rfl⟩ := StatCounters.statOf_eq_some_iff.mp hstat
  exact hline.sub fun b hb => List.mem_of_mem_drop (List.mem_of_mem_take hb)

theorem parseStatStream_plain {stream : Stream} {stat : ProcessCpuStat}
    (h : parseStatStream stream = some stat) (hstream : PlainFile stream.bytes) : Plain stat.name := by
  obtain ⟨⟨line, rest⟩, hline, hparse⟩ := Option.bind_eq_some_iff.mp h
  refine parseStat_plain hparse (hstream.sub fun b hb => ?_).cstr
  rw [← (fgets_some hline).2.1]
  exact List.mem_append_left _ hb

theorem top_subset {Entry Score : Type} [LE Score] [DecidableLE Score] {score : Entry → Score}
    {cap : Nat} {entries : List Entry} {entry : Entry}
    (h : entry ∈ entries.foldl (insertTop score cap) []) : entry ∈ entries := by
  have hmem := (foldl_insertTop_subperm score cap entries []).subset h
  rwa [List.append_nil] at hmem

theorem parseCmdline_plain {cap : Nat} {stream : Stream} {command : Bytes}
    (h : parseCmdline cap stream = some command) (hstream : PlainFile stream.bytes) :
    Plain command := by
  intro b hb
  obtain ⟨-, -, c, hc, rfl⟩ := ControlCodes.mem_parseCmdline h hb
  split_ifs with hnul
  · rfl
  · exact (hstream c hc).resolve_left hnul

theorem commandOr_plain {row : ProcessRow} {command : Option Bytes} (hrow : Plain row.name)
    (hcommand : ∀ text, command = some text → Plain text) : Plain (commandOr row command) := by
  unfold commandOr
  split
  · rename_i b text
    exact hcommand (b :: text) rfl
  · refine Plain.take ?_ _
    simp only [plain_append, hrow, and_true]
    exact ⟨plain_literal _ rfl, plain_literal _ rfl⟩

theorem firstLine_plain {size : Nat} {old : Bytes} (hold : Plain old) {stream : Stream}
    (h : PlainFile stream.bytes) (closed : Bool) : Plain (firstLine size old stream closed).1 := by
  unfold firstLine
  cases hread : fgets size stream with
  | none =>
    refine PlainFile.cstr fun b hb => ?_
    rcases List.mem_append.mp hb with hb | hb
    · exact h b (mem_of_mem_takeLine hb)
    · exact PlainFile.of_plain hold b (List.mem_of_mem_drop hb)
  | some r =>
    have hline : Plain (cstr r.1) := (h.sub fun b hb => by
      rw [← (fgets_some hread).2.1]
      exact List.mem_append_left _ hb).cstr
    dsimp only
    split_ifs
    · exact hline.sub (List.takeWhile_prefix _).subset
    · exact hline

section Read

variable {env : Env} (hfiles : PlainAnswers env) {n : Nat}

include hfiles

theorem readRow_plain {pid : Int} {row : ProcessRow} (h : (readRow env pid).value n = some row) :
    Plain row.name := by
  obtain ⟨-, parsed, starttime, hparse, -, rfl⟩ := readRow_some env h
  exact (parseStatus_plain hparse (hfiles.content _ _ _) : Plain parsed.name)

theorem readCmdline_plain {pid : Int} {cap : Nat} {command : Bytes}
    (h : (readCmdline env pid cap).value n = some command) : Plain command := by
  unfold readCmdline at h
  simp only [Calls.value_bind, readFile_value] at h
  split_ifs at h with hopen
  · dsimp only at h
    simp only [Calls.value_pure] at h
    split_ifs at h
    exact parseCmdline_plain h (hfiles.content _ _ _)
  · cases h

structure PlainDetail (detail : ProcessDetail) : Prop where
  name : Plain detail.row.name
  command : Plain detail.command

theorem processDetailRead_plain {pid : Int} {detail : ProcessDetail}
    (h : (processDetailRead env pid).value n = some detail) : PlainDetail detail := by
  have hrow := readRow_plain hfiles (processDetailRead_some env h)
  unfold processDetailRead at h
  split_ifs at h
  · cases h
  · simp only [Calls.value_bind] at h
    cases hread : (readRow env pid).value n with
    | none => simp [hread] at h
    | some row =>
      simp only [hread, Calls.value_bind, Calls.value_pure, Option.some.injEq] at h
      rw [← h] at hrow ⊢
      exact ⟨hrow, commandOr_plain hrow fun text htext => readCmdline_plain hfiles htext⟩

theorem processListRead_plain {rows : List ProcessRow}
    (h : (processListRead env).value n = some rows) : ∀ row ∈ rows, Plain row.name := by
  obtain ⟨dir, visits, -, -, rfl⟩ := scanProc_some h
  intro row hrow
  obtain ⟨visit, -, hvalue⟩ := mem_records.mp hrow
  exact readRow_plain hfiles hvalue

theorem sampleProcessRows_plain {rows : List ProcessRow}
    (h : (sampleProcessRows env).value n = some rows) : ∀ row ∈ rows, Plain row.name := by
  obtain ⟨listed, hlisted, hjoin⟩ := sampleProcessRows_cases env h
  have hplain := processListRead_plain hfiles hlisted
  rcases hjoin with rfl | ⟨previous, ticks, items, -, -, rfl⟩
  · exact hplain
  · intro row hrow
    obtain ⟨old, hold, rfl⟩ := List.mem_map.mp hrow
    obtain ⟨share, hshare⟩ := joinShare_keeps items old
    rw [hshare]
    exact hplain old hold

theorem shownRows_plain (state : AppState) :
    ∀ row ∈ shownRows env state (((sampleProcessRows env).value n).getD []), Plain row.name := by
  intro row hrow
  unfold shownRows at hrow
  dsimp only at hrow
  rw [(sortProcesses_perm env _ _).mem_iff, processQueryFilter_take] at hrow
  have hmem := (List.mem_filter.mp hrow).1
  cases hsample : (sampleProcessRows env).value n with
  | none => simp [hsample] at hmem
  | some sampled =>
    rw [hsample, Option.getD_some] at hmem
    exact sampleProcessRows_plain hfiles hsample row hmem

structure PlainHost (host : HostInfo) : Prop where
  hostname : Plain host.hostname
  kernelRelease : Plain host.kernelRelease
  thermalType : Plain host.thermalType

theorem readFirstLine_plain {path : Path} {old : Bytes} (hold : Plain old) (size n : Nat) :
    Plain ((readFirstLine env path old size).value n).1 := by
  rw [readFirstLine_value]
  split_ifs
  · exact firstLine_plain hold (hfiles.content _ _ _) _
  · exact hold

theorem hostRead_plain {info : HostInfo} (h : (hostRead env).value n = some info) :
    PlainHost info := by
  obtain ⟨hostname, release, cores, uptime, loads, time, hhostname, hrelease, -, -, -, rfl,
    -, -⟩ := hostRead_some h
  refine ⟨(hfiles.hostname _ _ hhostname).cstr.take _, (hfiles.release _ _ hrelease).cstr.take _, ?_⟩
  have hthermal := fun hottest => @readThermal_some env (fun hottest => Plain hottest.2)
    (fun zone hottest line temperature time _ =>
      readFirstLine_plain hfiles (plain_literal _ rfl) _ time) time hottest
  unfold hostOf
  cases hread : (readThermal env).value time with
  | none => exact plain_nil
  | some hottest => exact hthermal hottest hread

structure PlainView (view : Overview) : Prop where
  host : PlainHost view.host
  cpu : ∀ info ∈ view.cpuTop, Plain info.name
  memory : ∀ info ∈ view.memoryTop, Plain info.name

theorem collectOverview_plain {view : Overview} (h : (collectOverview env).value n = some view) :
    PlainView view := by
  obtain ⟨host, memory, usage, disk, diskUsed, cpuPrev, cpuCurr, cpuPercent, rates, cpuTop,
    memoryTop, hhost, -, -, -, -, hcpuTop, hmemoryTop, rfl⟩ := Views.collectOverview_collected h
  constructor
  · cases host with
    | none => exact ⟨plain_nil, plain_nil, plain_nil⟩
    | some info =>
      obtain ⟨time, hread⟩ := hhost info rfl
      exact hostRead_plain hfiles hread
  · intro info hinfo
    cases cpuTop with
    | none => cases hinfo
    | some top =>
      obtain ⟨previous, ticks, time, hread⟩ := hcpuTop top rfl
      obtain ⟨-, infos, htop, -, hinfos⟩ := Views.processCpuTopSince_read hread
      have hmem := top_subset (htop ▸ hinfo : info ∈ _)
      obtain ⟨-, pid, time, hinfo⟩ := hinfos info hmem
      unfold readInfo at hinfo
      simp only [Calls.value_bind, Calls.value_pure] at hinfo
      obtain ⟨stat, hstat, rfl⟩ := Option.map_eq_some_iff.mp hinfo
      rw [readProcessStat_value] at hstat
      split_ifs at hstat
      exact parseStatStream_plain hstat (hfiles.content _ _ _)
  · intro info hinfo
    cases memoryTop with
    | none => cases hinfo
    | some top =>
      obtain ⟨time, hread⟩ := hmemoryTop top rfl
      obtain ⟨processes, htop, -, hprocesses⟩ := Views.processTopMemory_read hread
      have hmem := top_subset (htop ▸ hinfo : info ∈ _)
      obtain ⟨pid, time, hinfo⟩ := hprocesses info hmem
      obtain ⟨opened, read, hparse⟩ := Views.readProcess_some hinfo
      exact processParseStatus_plain hparse (hfiles.content _ _ _)

end Read

structure PlainState (state : AppState) : Prop where
  search : Plain state.search
  draft : Plain state.searchDraft
  notice : Plain state.notice
  detail : PlainDetail state.selectedDetail
  lesson : state.lesson < teachCount
  chosen : state.learnSelected < teachCount

theorem initial_plain : PlainState AppState.initial where
  search := plain_nil
  draft := plain_nil
  notice := plain_nil
  detail := ⟨plain_nil, plain_nil⟩
  lesson := by decide
  chosen := by decide

theorem diagnosisLesson_lt (view : Overview) : diagnosisLesson view < teachCount := by
  unfold diagnosisLesson
  split <;> decide

section State

variable {env : Env} {state : AppState} {n : Nat} (h : PlainState state)

include h

theorem setNotice_plain {message : Bytes} (hmessage : Plain message) :
    PlainState (setNotice state message) :=
  { h with notice := hmessage.take _ }

theorem setSignalNotice_plain (result : SignalResult) (force : Bool) {name : Bytes}
    (hname : Plain name) : PlainState (setSignalNotice state result force name) := by
  unfold setSignalNotice
  cases result with
  | ok =>
    refine setNotice_plain h (plain_append.mpr ⟨hname, ?_⟩)
    split_ifs
    · exact plain_literal _ rfl
    · exact plain_literal _ rfl
  | _ => exact setNotice_plain h (plain_literal _ rfl)

theorem overviewKey_plain (key : Int) : PlainState (overviewKey state key) := by
  unfold overviewKey
  split_ifs
  · exact { h with notice := plain_nil }
  · exact { h with
      lesson := diagnosisLesson_lt state.view
      chosen := diagnosisLesson_lt state.view }
  · exact h

theorem editProcessSearch_plain (key : Int) : PlainState (editProcessSearch state key) := by
  unfold editProcessSearch
  dsimp only
  split_ifs with _ _ hprinted
  · exact { h with draft := h.draft.take _ }
  · exact h
  · refine { h with draft := plain_append.mpr ⟨h.draft, fun b hb => ?_⟩ }
    rw [List.mem_singleton.mp hb]
    exact harmless_of_isprint hprinted.2.2.1
  · exact h

theorem searchKey_plain (key : Int) : PlainState (searchKey state key) := by
  unfold searchKey
  split_ifs
  · exact { h with search := h.draft.take _, notice := plain_nil }
  · exact { h with }
  · exact editProcessSearch_plain h key

theorem learnMenuKey_plain (key : Int) : PlainState (learnMenuKey state key) := by
  unfold learnMenuKey
  split_ifs with _ hdown
  · exact { h with chosen := lt_of_le_of_lt (Nat.sub_le _ _) h.chosen }
  · exact { h with chosen := hdown.2 }
  · exact { h with lesson := h.chosen }
  · exact { h with }
  · exact h

theorem learnTopicKey_plain (key : Int) : PlainState (learnTopicKey state key) := by
  have hmod (n : Nat) : n % teachCount < teachCount := Nat.mod_lt n (by decide)
  unfold learnTopicKey
  split_ifs
  · exact { h with lesson := hmod _, chosen := hmod _ }
  · exact { h with lesson := hmod _, chosen := hmod _ }
  · exact { h with }
  · exact h

theorem handleSignalConfirm_plain (force : Bool) :
    PlainState ((handleSignalConfirm env state force).value n).1 := by
  unfold handleSignalConfirm
  dsimp only
  split_ifs
  · exact { setNotice_plain h (plain_literal _ rfl) with }
  · simp only [Calls.value_bind, Calls.value_pure]
    exact { setSignalNotice_plain h _ force h.detail.name with }

theorem confirmKey_plain (force : Bool) (key : Int) :
    PlainState ((confirmKey env force state key).value n).1 := by
  unfold confirmKey
  split_ifs
  · exact handleSignalConfirm_plain h force
  · exact { h with }
  · exact h

variable (hfiles : PlainAnswers env)

include hfiles

theorem refreshSelectedDetail_plain {refreshed : AppState}
    (hrefresh : (refreshSelectedDetail env state).value n = some refreshed) :
    PlainState refreshed := by
  obtain ⟨detail, hread, -, -, rfl⟩ := refreshSelectedDetail_some env hrefresh
  exact { h with detail := processDetailRead_plain hfiles hread }

theorem openSelectedDetail_plain (row : ProcessRow) (screen : Screen) :
    PlainState ((openSelectedDetail env state row screen).value n) := by
  have hchanged : Plain (snprintf noticeSize
      (ascii "The process changed or exited before RookieTop could open it.")) :=
    (plain_literal _ rfl).take _
  unfold openSelectedDetail
  simp only [Calls.value_bind]
  cases hread : (processDetailRead env row.pid).value n with
  | none => exact { h with notice := hchanged }
  | some detail =>
    have hdetail := processDetailRead_plain hfiles hread
    dsimp only
    split_ifs
    · exact { h with detail := hdetail }
    · exact { h with notice := hchanged, detail := hdetail }

theorem openConfirmFromDetail_plain (force : Bool) :
    PlainState ((openConfirmFromDetail env state force).value n) := by
  unfold openConfirmFromDetail
  simp only [Calls.value_bind]
  cases hrefresh : (refreshSelectedDetail env state).value n with
  | none => exact { setNotice_plain h (plain_literal _ rfl) with }
  | some refreshed => exact { refreshSelectedDetail_plain h hfiles hrefresh with }

theorem processesKey_plain (rows : List ProcessRow) (key : Int) :
    PlainState ((processesKey env state rows key).value n) := by
  have hpress := processesKey_press env state rows key
  generalize processesKey env state rows key = act at hpress ⊢
  cases hpress with
  | arrow i _ =>
    obtain ⟨selected, pid, starttime, heq⟩ := selectAt_eq state rows i
    rw [Calls.value_pure, heq]
    exact { h with }
  | opens screen _ =>
    unfold openAt
    split
    · exact h
    · exact openSelectedDetail_plain h hfiles _ screen
  | search _ => exact { h with draft := h.search.take _ }
  | sort _ => exact { h with }
  | menu => exact { h with }
  | back => exact { h with }
  | none => exact h

theorem detailKey_plain (key : Int) : PlainState ((detailKey env state key).value n).1 := by
  unfold detailKey
  split_ifs
  · exact { h with }
  · exact openConfirmFromDetail_plain h hfiles false
  · exact openConfirmFromDetail_plain h hfiles true
  · exact { h with }
  · exact h

theorem processLearnKey_plain (key : Int) :
    PlainState ((processLearnKey env state key).value n).1 := by
  unfold processLearnKey
  split_ifs
  · exact openConfirmFromDetail_plain h hfiles false
  · exact openConfirmFromDetail_plain h hfiles true
  · exact { h with }
  · exact h

end State

structure PlainPass (pass : Pass) : Prop where
  state : PlainState pass.state
  drawn : ∀ frame, pass.frame = some frame → ∀ text ∈ outside frame.drawing, Plain text
  lesson : ∀ frame shown, pass.frame = some frame → frame.drawing = .lesson shown →
    shown.lesson < teachCount

section Pass

variable {env : Env} {state : AppState} {consumed n : Nat}

theorem plainPass_plain (drawing : Drawing) {act : AppState → Int → AppState}
    (hdrawn : ∀ text ∈ outside drawing, Plain text)
    (hlesson : ∀ shown, drawing = .lesson shown → shown.lesson < teachCount)
    (hact : ∀ key, PlainState (act state key)) (term : TerminalSize) :
    PlainPass ((plainPass env drawing act term state consumed).value n) := by
  refine ⟨hact _, fun frame hframe => ?_, fun frame shown hframe hshown => ?_⟩
  · cases Option.some.inj hframe
    exact hdrawn
  · cases Option.some.inj hframe
    exact hlesson shown hshown

variable (h : PlainState state)

include h

variable (hfiles : PlainAnswers env)

include hfiles

theorem overviewPass_plain (term : TerminalSize) :
    PlainPass ((overviewPass env term state consumed).value n) := by
  unfold overviewPass
  simp only [Calls.value_bind]
  cases hrefresh : (refreshOverview env state).value n with
  | none =>
    exact ⟨{ h with }, fun frame hframe => (by cases hframe),
      fun frame shown hframe => (by cases hframe)⟩
  | some refreshed =>
    obtain ⟨view, hview, rfl⟩ := refreshOverview_some env hrefresh
    have hplain := collectOverview_plain hfiles hview
    have hstate : PlainState { state with
        view := view, viewOk := true, history := historyPush state.history view } := { h with }
    have hdrawn : ∀ text ∈ outside (.overview view), Plain text := by
      simp only [outside, List.cons_append, List.nil_append, List.forall_mem_cons,
        List.forall_mem_append, List.forall_mem_map]
      exact ⟨hplain.host.hostname, hplain.host.kernelRelease, hplain.host.thermalType, hplain.cpu,
        hplain.memory⟩
    refine ⟨overviewKey_plain hstate _, fun frame hframe => ?_, fun frame shown hframe hshown => ?_⟩
    · cases Option.some.inj hframe
      exact hdrawn
    · cases Option.some.inj hframe
      cases hshown

theorem processesPass_plain (term : TerminalSize) :
    PlainPass ((processesPass env term state consumed).value n) := by
  unfold processesPass showProcesses
  simp only [Calls.value_bind, Calls.value_pure]
  have hnoted : PlainState (noticeSampled state ((sampleProcessRows env).value n)) := by
    unfold noticeSampled
    split_ifs
    · exact setNotice_plain h (plain_literal _ rfl)
    · exact h
  have hrows := @shownRows_plain env hfiles n (noticeSampled state ((sampleProcessRows env).value n))
  generalize noticeSampled state ((sampleProcessRows env).value n) = noted at hnoted hrows ⊢
  generalize shownRows env noted (((sampleProcessRows env).value n).getD []) = rows at hrows ⊢
  obtain ⟨selected, pid, starttime, haligned⟩ := alignSelection_eq noted rows
  have hplain : PlainState (alignSelection noted rows) := by
    rw [haligned]
    exact { hnoted with }
  have hdrawn (total : Nat) :
      ∀ text ∈ outside (.processes rows total (alignSelection noted rows)), Plain text := by
    simp only [outside, List.forall_mem_append, List.forall_mem_map, List.forall_mem_cons,
      List.not_mem_nil, false_implies, implies_true, and_true]
    exact ⟨hrows, hplain.search, hplain.notice⟩
  refine ⟨processesKey_plain hplain hfiles _ _, fun frame hframe => ?_,
    fun frame shown hframe hshown => ?_⟩
  · cases Option.some.inj hframe
    exact hdrawn _
  · cases Option.some.inj hframe
    cases hshown

theorem detailPass_plain (draw : ProcessDetail → Drawing)
    (hdraw : ∀ detail, outside (draw detail) ⊆ [detail.row.name, detail.command])
    (hlesson : ∀ detail shown, draw detail ≠ .lesson shown)
    {act : AppState → Int → Calls (AppState × List KillCall)}
    (hact : ∀ state, PlainState state → ∀ key n, PlainState ((act state key).value n).1)
    (term : TerminalSize) :
    PlainPass ((detailPass env draw act term state consumed).value n) := by
  unfold detailPass
  simp only [Calls.value_bind]
  cases hrefresh : (refreshSelectedDetail env state).value n with
  | none =>
    exact ⟨{ setNotice_plain h (plain_literal _ rfl) with }, fun frame hframe => (by cases hframe),
      fun frame shown hframe => (by cases hframe)⟩
  | some refreshed =>
    have hrefreshed := refreshSelectedDetail_plain h hfiles hrefresh
    refine ⟨hact _ hrefreshed _ _, fun frame hframe text htext => ?_,
      fun frame shown hframe hshown => ?_⟩
    · cases Option.some.inj hframe
      have hmem := hdraw _ htext
      simp only [List.mem_cons, List.not_mem_nil, or_false] at hmem
      rcases hmem with rfl | rfl
      · exact hrefreshed.detail.name
      · exact hrefreshed.detail.command
    · cases Option.some.inj hframe
      exact absurd hshown (hlesson _ shown)

theorem loopPass_plain :
    PlainPass ((loopPass env state consumed).value n) := by
  unfold loopPass screenPass
  rw [Calls.value_bind, Calls.value_call, Calls.after_call]
  have hname (detail : ProcessDetail) : [detail.row.name] ⊆ [detail.row.name, detail.command] :=
    List.cons_subset_cons _ (List.nil_subset _)
  cases state.screen with
  | overview => exact overviewPass_plain h hfiles _
  | processes => exact processesPass_plain h hfiles _
  | processSearch =>
    exact plainPass_plain (.processSearch state) (List.forall_mem_singleton.mpr h.draft)
      (fun _ hshown => by cases hshown) (searchKey_plain h) _
  | learnMenu =>
    exact plainPass_plain (.learnMenu state) (fun _ htext => absurd htext List.not_mem_nil)
      (fun _ hshown => by cases hshown) (learnMenuKey_plain h) _
  | learnTopic =>
    refine plainPass_plain (.lesson state) (fun _ htext => absurd htext List.not_mem_nil)
      (fun shown hshown => ?_) (learnTopicKey_plain h) _
    cases hshown
    exact h.lesson
  | detail =>
    exact detailPass_plain h hfiles .detail (fun detail => List.Subset.refl _)
      (fun _ _ hshown => by cases hshown) (fun _ hstate key _ => detailKey_plain hstate hfiles key) _
  | processLearn =>
    exact detailPass_plain h hfiles .processLearning hname (fun _ _ hshown => by cases hshown)
      (fun _ hstate key _ => processLearnKey_plain hstate hfiles key) _
  | confirmTerm =>
    exact detailPass_plain h hfiles (.confirm · false) hname (fun _ _ hshown => by cases hshown)
      (fun _ hstate key _ => confirmKey_plain hstate false key) _
  | confirmKill =>
    exact detailPass_plain h hfiles (.confirm · true) hname (fun _ _ hshown => by cases hshown)
      (fun _ hstate key _ => confirmKey_plain hstate true key) _

end Pass

variable {env : Env} (hfiles : PlainAnswers env)

include hfiles

theorem state_plain (n : Nat) : PlainState (runInteractive env n).state := by
  induction n with
  | zero => exact initial_plain
  | succ n ih =>
    cases hpass : passAt env n with
    | none =>
      rw [(passAt_none env hpass).1]
      exact ih
    | some pass =>
      obtain ⟨hvalue, hstate, -⟩ := passAt_some env hpass
      rw [hstate, hvalue]
      exact (loopPass_plain ih hfiles).state

theorem passAt_plain {n : Nat} {pass : Pass} (hpass : passAt env n = some pass) :
    PlainPass pass := by
  rw [(passAt_some env hpass).1]
  exact loopPass_plain (state_plain hfiles n) hfiles

end RookieTop.Contained
