import RookieTop.Render
import RookieTop.Wording

/-! A frame leaves no style on, and is safe text and the sequences for drawing, unless a text from
outside has control codes. -/
namespace RookieTop.Drawn

open CLib Text Sys ProcessList CollectOverview DiagnosisBuild Explorer App RunInteractive
  PrintWrapped RenderProcesses Teaching Render

open History (Rounding padding cells cell levels level_lt)

open Wording (wording diagnosisBuild_wording)

/-- All that the render functions print and the program has not made up itself. -/
def outside : Drawing → List Bytes
  | .overview view =>
    [view.host.hostname, view.host.kernelRelease, view.host.thermalType] ++
      view.cpuTop.map (·.name) ++ view.memoryTop.map (·.name)
  | .processes rows _ state => rows.map (·.name) ++ [state.search, state.notice]
  | .processSearch state => [state.searchDraft]
  | .detail shown => [shown.row.name, shown.command]
  | .processLearning shown => [shown.row.name]
  | .learnMenu _ => []
  | .lesson _ => []
  | .confirm shown _ => [shown.row.name]

section Texts

theorem plain_precision {text : Bytes} (h : Plain text) (width : Int) :
    Plain (precision width text) := by
  unfold precision
  split_ifs
  · exact h
  · exact h.take _

theorem plain_cpuStatus (usage : ℚ) : Plain (cpuStatus usage) := by
  unfold cpuStatus
  split_ifs <;> exact plain_literal _ rfl

theorem plain_memoryStatus (usage : ℚ) : Plain (memoryStatus usage) := by
  unfold memoryStatus
  split_ifs <;> exact plain_literal _ rfl

theorem plain_diskStatus (usage : ℚ) : Plain (diskStatus usage) := by
  unfold diskStatus
  split_ifs <;> exact plain_literal _ rfl

theorem plain_loadStatus (view : Overview) : Plain (loadStatus view) := by
  unfold loadStatus
  split_ifs <;> exact plain_literal _ rfl

theorem plain_statusText (status : OverallStatus) : Plain (statusText status) := by
  cases status <;> exact plain_literal _ rfl

theorem plain_sortName (sort : ProcessSort) : Plain (sortName sort) := by
  cases sort <;> exact plain_literal _ rfl

theorem plain_teachingStateName (state : UInt8) : Plain (teachingStateName state) := by
  unfold teachingStateName
  split_ifs <;> exact plain_literal _ rfl

theorem plain_teachingStateExplanation (state : UInt8) :
    Plain (teachingStateExplanation state) := by
  unfold teachingStateExplanation
  split_ifs <;> exact plain_literal _ rfl

theorem plain_formatProcessCpu (percent : ℚ) (cap : Nat) : Plain (formatProcessCpu percent cap) := by
  unfold formatProcessCpu snprintf
  split_ifs
  · exact (plain_literal ['-', '-'] rfl).take _
  · exact (plain_append.mpr ⟨plain_formatTenths _, plain_literal _ rfl⟩).take _

theorem plain_formatUptime (r : Rounding) (seconds : ℚ) (cap : Nat) :
    Plain (formatUptime r seconds cap) := by
  unfold formatUptime snprintf
  dsimp only
  refine Plain.take ?_ _
  split_ifs <;> simp only [plain_append, plain_formatInt, plain_padZero, true_and, and_true]
  · exact ⟨plain_literal _ rfl, plain_literal _ rfl⟩
  · exact ⟨plain_literal _ rfl, plain_literal _ rfl⟩
  · exact plain_literal _ rfl

set_option maxRecDepth 4000 in
theorem plain_diagnosis {view : Overview} (hcpu : ∀ info ∈ view.cpuTop, Plain info.name)
    (hmemory : ∀ info ∈ view.memoryTop, Plain info.name) :
    Plain (buildViewDiagnosis view).headline ∧ Plain (buildViewDiagnosis view).detail := by
  have hcpuName : Plain ((viewInput view).topCpuName.getD []) := by
    unfold viewInput
    dsimp only
    split_ifs
    · cases hhead : view.cpuTop.head? with
      | none => exact plain_nil
      | some info => exact hcpu info (List.mem_of_mem_head? hhead)
    · exact plain_nil
  have hmemoryName : Plain ((viewInput view).topMemoryName.getD []) := by
    unfold viewInput
    dsimp only
    split_ifs
    · cases hhead : view.memoryTop.head? with
      | none => exact plain_nil
      | some info => exact hmemory info (List.mem_of_mem_head? hhead)
    · exact plain_nil
  unfold buildViewDiagnosis
  rw [diagnosisBuild_wording]
  generalize (diagnosisBuild (viewInput view)).focus = focus
  constructor
  · refine Plain.take ?_ _
    cases focus <;> exact plain_literal _ rfl
  · refine Plain.take ?_ _
    cases focus with
    | disk =>
      simp only [wording, diskDetail, plain_append, plain_formatTenths, and_true]
      exact ⟨plain_literal _ rfl, plain_literal _ rfl⟩
    | memory =>
      simp only [wording, memoryDetail]
      split_ifs <;> simp only [plain_append, plain_formatTenths, hmemoryName, true_and, and_true]
      · exact ⟨⟨plain_literal _ rfl, plain_literal _ rfl⟩, plain_literal _ rfl⟩
      · exact plain_literal _ rfl
    | cpu =>
      simp only [wording, cpuDetail]
      split_ifs
      · simp only [plain_append, plain_formatTenths, hcpuName, true_and, and_true]
        exact ⟨plain_literal _ rfl, plain_literal _ rfl⟩
      · exact plain_literal _ rfl
    | load =>
      simp only [wording, loadDetail]
      split_ifs <;> exact plain_literal _ rfl
    | healthy => exact plain_literal _ rfl

structure PlainTopic (topic : TeachingTopic) : Prop where
  title : Plain topic.title
  summary : Plain topic.summary
  what : Plain topic.what
  why : Plain topic.why
  how : Plain topic.how
  tryIt : Plain topic.tryIt
  source : Plain topic.source

set_option maxRecDepth 4000 in
theorem plain_topic {concept : Nat} {topic : TeachingTopic}
    (h : teachingGet concept = some topic) : PlainTopic topic := by
  have hmem : topic ∈ topics := List.mem_of_getElem? h
  simp only [topics, List.mem_cons, List.not_mem_nil, or_false] at hmem
  rcases hmem with rfl | rfl | rfl | rfl | rfl | rfl | rfl | rfl | rfl <;> constructor <;>
    dsimp only [topicCpu, topicMemory, topicLoad, topicProcess, topicPid, topicProcessState,
      topicSignals, topicDisk, topicNetwork] <;>
    exact plain_literal _ rfl

end Texts

section Calls

variable (r : Rounding) (useColor : Bool)

def Draws (pieces : List Piece) : Prop := ∀ piece ∈ pieces, piece.Draws

@[simp] theorem draws_nil : Draws [] := fun _ h => absurd h List.not_mem_nil

@[simp] theorem draws_append {first second : List Piece} :
    Draws (first ++ second) ↔ Draws first ∧ Draws second := List.forall_mem_append

@[simp] theorem draws_flatMap {α : Type} {f : α → List Piece} {items : List α} :
    Draws (items.flatMap f) ↔ ∀ item ∈ items, Draws (f item) := List.forall_mem_flatMap

@[simp] theorem draws_out {text : Bytes} : Draws (out text) ↔ Plain text := List.forall_mem_singleton

@[simp] theorem draws_say {text : String} : Draws (say text) ↔ Plain (ascii text) := draws_out

@[simp] theorem draws_moveTo (row col : Int) : Draws (moveTo row col) :=
  List.forall_mem_singleton.mpr trivial

@[simp] theorem draws_clearScreen : Draws clearScreen :=
  List.forall_mem_cons.mpr ⟨trivial, List.forall_mem_singleton.mpr trivial⟩

@[simp] theorem draws_printRule (width : Int) : Draws (printRule width) :=
  draws_out.mpr (plain_replicate _ rfl)

@[simp] theorem draws_ansi (code : AnsiCode) : Draws (ansi useColor code) := by
  unfold ansi
  split
  · cases code with
    | empty => exact draws_nil
    | _ => exact List.forall_mem_singleton.mpr rfl
  · exact draws_nil

@[simp] theorem draws_styled {code : AnsiCode} {text : Bytes} :
    Draws (styled useColor code text) ↔ Plain text := by
  unfold styled
  simp

@[simp] theorem draws_printSection {name : String} :
    Draws (printSection useColor name) ↔ Plain (ascii name) := draws_styled useColor

@[simp] theorem draws_printKey {key label : String} {color : AnsiCode} :
    Draws (printKey useColor key label color) ↔ Plain (ascii key) ∧ Plain (ascii label) := by
  have hbrackets : Plain (ascii "[") ∧ Plain (ascii " ") ∧ Plain (ascii "]") :=
    ⟨plain_literal _ rfl, plain_literal _ rfl, plain_literal _ rfl⟩
  unfold printKey
  simp [hbrackets]

@[simp] theorem draws_printMetric {name : String} {percent : ℚ} {status : Bytes}
    {color : AnsiCode} {width : Int} :
    Draws (printMetric r useColor name percent status color width) ↔
      Plain (ascii name) ∧ Plain status := by
  have hbrackets : Plain (ascii "[") ∧ Plain (ascii " ") ∧ Plain (ascii "]") ∧ Plain (ascii "%  ") :=
    ⟨plain_literal _ rfl, plain_literal _ rfl, plain_literal _ rfl, plain_literal _ rfl⟩
  have hbar (n : Nat) : Plain (List.replicate n 35) ∧ Plain (List.replicate n 46) :=
    ⟨plain_replicate n rfl, plain_replicate n rfl⟩
  unfold printMetric printBar
  simp [hbrackets, hbar]

@[simp] theorem draws_printHistory {label : String} {values : List ℚ} {count width : Nat}
    {color : AnsiCode} :
    Draws (printHistory r useColor label values count width color) ↔ Plain (ascii label) := by
  have hspace : Plain (ascii " ") := plain_literal _ rfl
  have hcells : Plain (cells r values count width) := by
    intro b hb
    obtain ⟨i, -, rfl⟩ := List.mem_map.mp hb
    have hlevel := level_lt r (values.getD i 0)
    have hlevels : Plain levels := plain_literal _ rfl
    unfold cell
    rw [List.getD_eq_getElem?_getD, List.getElem?_eq_getElem hlevel, Option.getD_some]
    exact hlevels _ (List.getElem_mem hlevel)
  have hpadding : Plain (padding count width) := plain_replicate _ rfl
  unfold printHistory
  simp [hspace, hcells, hpadding]

end Calls

section Styles

variable (r : Rounding) (useColor : Bool)

@[simp] theorem behind_nil (style : List Bytes) : stylesBehind [] style = style := rfl

@[simp] theorem behind_append (first second : List Piece) (style : List Bytes) :
    stylesBehind (first ++ second) style = stylesBehind second (stylesBehind first style) :=
  List.foldl_append

theorem behind_flatMap {α : Type} {f : α → List Piece} {items : List α}
    (h : ∀ item ∈ items, stylesBehind (f item) [] = []) :
    stylesBehind (items.flatMap f) [] = [] := by
  induction items with
  | nil => rfl
  | cons item items ih =>
    obtain ⟨hitem, hitems⟩ := List.forall_mem_cons.mp h
    rw [List.flatMap_cons, behind_append, hitem, ih hitems]

@[simp] theorem behind_out (text : Bytes) (style : List Bytes) :
    stylesBehind (out text) style = style := rfl

@[simp] theorem behind_say (text : String) (style : List Bytes) :
    stylesBehind (say text) style = style := rfl

@[simp] theorem behind_moveTo (row col : Int) (style : List Bytes) :
    stylesBehind (moveTo row col) style = style := rfl

@[simp] theorem behind_clearScreen (style : List Bytes) :
    stylesBehind clearScreen style = style := rfl

@[simp] theorem behind_printRule (width : Int) (style : List Bytes) :
    stylesBehind (printRule width) style = style := rfl

theorem behind_reset {pieces : List Piece} (h : useColor = false → stylesBehind pieces [] = []) :
    stylesBehind (ansi useColor .reset) (stylesBehind pieces []) = [] := by
  cases useColor with
  | true => rfl
  | false => exact h rfl

@[simp] theorem behind_styled (code : AnsiCode) (text : Bytes) :
    stylesBehind (styled useColor code text) [] = [] := by
  unfold styled
  rw [behind_append]
  refine behind_reset useColor ?_
  rintro rfl
  rfl

@[simp] theorem behind_printSection (name : String) :
    stylesBehind (printSection useColor name) [] = [] := behind_styled useColor _ _

@[simp] theorem behind_printKey (key label : String) (color : AnsiCode) :
    stylesBehind (printKey useColor key label color) [] = [] := by
  unfold printKey
  rw [behind_append, behind_out, behind_append]
  refine behind_reset useColor ?_
  rintro rfl
  rfl

@[simp] theorem behind_printMetric (name : String) (percent : ℚ) (status : Bytes)
    (color : AnsiCode) (width : Int) :
    stylesBehind (printMetric r useColor name percent status color width) [] = [] := by
  have hbar : stylesBehind (printBar r useColor percent width color) [] = [] := by
    unfold printBar
    dsimp only
    rw [behind_append, behind_say, behind_append, behind_out, behind_append]
    refine behind_reset useColor ?_
    rintro rfl
    rfl
  unfold printMetric
  simp [hbar]

@[simp] theorem behind_printHistory (label : String) (values : List ℚ) (count width : Nat)
    (color : AnsiCode) :
    stylesBehind (printHistory r useColor label values count width color) [] = [] := by
  unfold printHistory
  rw [behind_append]
  refine behind_reset useColor ?_
  rintro rfl
  rfl

end Styles

section Frames

variable (r : Rounding) (useColor : Bool) {term : TerminalSize}

structure Tame (pieces : List Piece) : Prop where
  draws : Draws pieces
  settles : stylesBehind pieces [] = []

theorem tame_nil : Tame [] := ⟨draws_nil, rfl⟩

theorem Tame.append {first second : List Piece} (hfirst : Tame first) (hsecond : Tame second) :
    Tame (first ++ second) :=
  ⟨draws_append.mpr ⟨hfirst.draws, hsecond.draws⟩, by
    rw [behind_append, hfirst.settles, hsecond.settles]⟩

theorem tame_flatMap {α : Type} {f : α → List Piece} {items : List α}
    (h : ∀ item ∈ items, Tame (f item)) : Tame (items.flatMap f) :=
  ⟨draws_flatMap.mpr fun item hitem => (h item hitem).draws,
    behind_flatMap fun item hitem => (h item hitem).settles⟩

theorem tame_moveTo (row col : Int) : Tame (moveTo row col) := ⟨draws_moveTo row col, rfl⟩

theorem tame_clearScreen : Tame clearScreen := ⟨draws_clearScreen, rfl⟩

theorem tame_printRule (width : Int) : Tame (printRule width) := ⟨draws_printRule width, rfl⟩

theorem tame_out {text : Bytes} (h : Plain text) : Tame (out text) := ⟨draws_out.mpr h, rfl⟩

theorem tame_styled (code : AnsiCode) {text : Bytes} (h : Plain text) :
    Tame (styled useColor code text) :=
  ⟨(draws_styled useColor).mpr h, behind_styled useColor code text⟩

theorem tame_printInsight {view : Overview} (hcpu : ∀ info ∈ view.cpuTop, Plain info.name)
    (hmemory : ∀ info ∈ view.memoryTop, Plain info.name) : Tame (printInsight useColor view) := by
  obtain ⟨hheadline, hdetail⟩ := plain_diagnosis hcpu hmemory
  unfold printInsight
  constructor
  · simp [hheadline, hdetail]
    exact plain_literal _ rfl
  · simp

theorem tame_renderCompact {view : Overview} (hcpu : ∀ info ∈ view.cpuTop, Plain info.name)
    (hmemory : ∀ info ∈ view.memoryTop, Plain info.name) :
    Tame (renderCompact r useColor view) := by
  have hinsight := tame_printInsight useColor hcpu hmemory
  unfold renderCompact rookietopVersion
  constructor
  · split_ifs <;>
      simp [hinsight.draws, plain_cpuStatus, plain_memoryStatus, plain_diskStatus, plain_statusText] <;>
      and_intros <;> exact plain_literal _ rfl
  · split_ifs <;> simp [hinsight.settles]

theorem tame_overviewHeader {view : Overview} (hname : Plain view.host.hostname)
    (hkernel : Plain view.host.kernelRelease) : Tame (overviewHeader r useColor term view) := by
  unfold overviewHeader rookietopVersion
  constructor
  · dsimp only
    split_ifs <;>
      simp [hname, hkernel, plain_formatUptime, plain_statusText] <;>
      and_intros <;> exact plain_literal _ rfl
  · dsimp only
    split_ifs <;> simp

theorem tame_overviewSystem (layout : OverviewLayout) (view : Overview) :
    Tame (overviewSystem r useColor layout view) := by
  unfold overviewSystem
  constructor
  · simp [plain_cpuStatus, plain_memoryStatus, plain_diskStatus]
    and_intros <;> exact plain_literal _ rfl
  · simp

theorem tame_overviewRightNow (layout : OverviewLayout) (view : Overview)
    (hthermal : Plain view.host.thermalType) : Tame (overviewRightNow useColor layout view) := by
  unfold overviewRightNow
  constructor
  · split_ifs <;> simp [hthermal, plain_loadStatus] <;> and_intros <;> exact plain_literal _ rfl
  · split_ifs <;> simp

theorem tame_overviewRow {view : Overview} (layout : OverviewLayout) (i : Nat)
    (hcpu : ∀ info ∈ view.cpuTop, Plain info.name)
    (hmemory : ∀ info ∈ view.memoryTop, Plain info.name) :
    Tame (overviewRow useColor layout view i) := by
  unfold overviewRow
  refine (((tame_moveTo _ _).append ?_).append (tame_moveTo _ _)).append ?_
  · split
    · rename_i info hinfo
      have hname := hcpu info (List.mem_of_getElem? (Option.ite_none_right_eq_some.mp hinfo).2)
      constructor
      · simp [hname.take]
        and_intros <;> exact plain_literal _ rfl
      · simp
    · split_ifs
      · exact tame_styled useColor _ (plain_literal _ rfl)
      · exact tame_nil
  · split
    · rename_i info hinfo
      have hname := hmemory info (List.mem_of_getElem? (Option.ite_none_right_eq_some.mp hinfo).2)
      constructor
      · simp [hname.take]
        and_intros <;> exact plain_literal _ rfl
      · simp
    · exact tame_nil

theorem tame_overviewActivity (layout : OverviewLayout) (history : MetricHistory)
    (view : Overview) : Tame (overviewActivity r useColor layout history view) := by
  unfold overviewActivity
  dsimp only
  split_ifs
  · constructor
    · simp
      and_intros <;> exact plain_literal _ rfl
    · simp
  · exact tame_nil

theorem tame_overviewTeaching {view : Overview} (layout : OverviewLayout)
    (hcpu : ∀ info ∈ view.cpuTop, Plain info.name)
    (hmemory : ∀ info ∈ view.memoryTop, Plain info.name) :
    Tame (overviewTeaching useColor layout view) := by
  obtain ⟨hheadline, hdetail⟩ := plain_diagnosis hcpu hmemory
  unfold overviewTeaching
  dsimp only
  constructor
  · split_ifs <;> simp [hheadline, plain_precision hdetail] <;> and_intros <;>
      exact plain_literal _ rfl
  · split_ifs <;> simp

theorem tame_overviewFooter : Tame (overviewFooter useColor term) := by
  unfold overviewFooter
  constructor
  · simp
    and_intros <;> exact plain_literal _ rfl
  · simp

theorem tame_drawOverview {history : MetricHistory} {view : Overview}
    (h : ∀ text ∈ outside (.overview view), Plain text) :
    Tame (drawOverview r useColor history view term) := by
  simp only [outside, List.cons_append, List.nil_append, List.forall_mem_cons,
    List.forall_mem_append, List.forall_mem_map] at h
  obtain ⟨hname, hkernel, hthermal, hcpu, hmemory⟩ := h
  unfold drawOverview
  split_ifs
  · have hcompact := tame_renderCompact r useColor hcpu hmemory
    constructor
    · simp [hcompact.draws]
      and_intros <;> exact plain_literal _ rfl
    · simp [hcompact.settles]
  · have hheader : Tame (overviewHeader r useColor term view) :=
      tame_overviewHeader r useColor hname hkernel
    have hsystem := tame_overviewSystem r useColor (overviewLayout term) view
    have hright := tame_overviewRightNow useColor (overviewLayout term) view hthermal
    have hrows := tame_flatMap fun i (_ : i ∈ List.range (overviewLayout term).processRows) =>
      tame_overviewRow useColor (overviewLayout term) i hcpu hmemory
    have hactivity := tame_overviewActivity r useColor (overviewLayout term) history view
    have hteaching := tame_overviewTeaching useColor (overviewLayout term) hcpu hmemory
    have hfooter : Tame (overviewFooter useColor term) := tame_overviewFooter useColor
    unfold renderOverview
    dsimp only
    constructor
    · simp only [draws_append, hheader.draws, hsystem.draws, hright.draws, hrows.draws,
        hactivity.draws, hteaching.draws, hfooter.draws, draws_clearScreen, draws_moveTo,
        draws_printRule, draws_styled, true_and, and_true]
      exact ⟨plain_literal _ rfl, plain_literal _ rfl⟩
    · simp only [behind_append, hheader.settles, hsystem.settles, hright.settles, hrows.settles,
        hactivity.settles, hteaching.settles, hfooter.settles, behind_clearScreen, behind_moveTo,
        behind_printRule, behind_styled]

theorem tame_processesHeader {state : AppState} (count total : Nat) (h : Plain state.search) :
    Tame (processesHeader useColor term count total state) := by
  unfold processesHeader
  constructor
  · split_ifs <;> simp [h, plain_sortName] <;> and_intros <;> exact plain_literal _ rfl
  · split_ifs <;> simp

theorem plain_lineText {row : ProcessRow} (highlighted : Bool) (width : Nat)
    (h : Plain row.name) : Plain (lineText highlighted width row) := by
  unfold lineText
  simp [h.take, (plain_teachingStateName row.state).take, plain_formatProcessCpu]
  cases highlighted <;> and_intros <;> exact plain_literal _ rfl

theorem plain_tableLines {rows : List ProcessRow} (state : AppState)
    (h : ∀ row ∈ rows, Plain row.name) :
    ∀ line ∈ tableLines term rows state, Plain line.text := by
  have hloop (rest : List ProcessRow) (hrest : ∀ row ∈ rest, Plain row.name) (i : Nat) (top : Int) :
      ∀ line ∈ tableLoop term state.selected rest i top, Plain line.text := by
    induction rest generalizing i top with
    | nil => exact fun line hline => absurd hline List.not_mem_nil
    | cons first rest ih =>
      obtain ⟨hfirst, hrest⟩ := List.forall_mem_cons.mp hrest
      unfold tableLoop
      split_ifs
      · exact List.forall_mem_cons.mpr ⟨plain_lineText _ _ hfirst, ih hrest _ _⟩
      · exact fun line hline => absurd hline List.not_mem_nil
  exact hloop _ (fun row hrow => h row (List.mem_of_mem_drop hrow)) _ _

theorem tame_printTableLine (selected : Nat) {line : TableLine} (h : Plain line.text) :
    Tame (printTableLine useColor selected line) := by
  unfold printTableLine
  constructor
  · split_ifs <;> simp [h]
  · split_ifs <;> simp

theorem tame_noProcesses {state : AppState} (h : Plain state.search) : Tame (noProcesses state) := by
  unfold noProcesses
  constructor
  · split_ifs <;> simp [h] <;> and_intros <;> exact plain_literal _ rfl
  · split_ifs <;> simp

theorem tame_aboutProcess (top : Int) {selected : ProcessRow} (h : Plain selected.name) :
    Tame (aboutProcess top selected) := by
  unfold aboutProcess
  constructor
  · split_ifs <;>
      simp [h, plain_teachingStateName, plain_teachingStateExplanation, plain_formatProcessCpu] <;>
      and_intros <;> exact plain_literal _ rfl
  · simp

theorem tame_processesFooter : Tame (processesFooter useColor term) := by
  unfold processesFooter
  constructor
  · simp
    and_intros <;> exact plain_literal _ rfl
  · simp

theorem tame_renderProcesses {rows : List ProcessRow} {total : Nat} {state : AppState}
    (hrows : ∀ row ∈ rows, Plain row.name) (hsearch : Plain state.search)
    (hnotice : Plain state.notice) : Tame (renderProcesses useColor rows total state term) := by
  have hheader : Tame (processesHeader useColor term rows.length total state) :=
    tame_processesHeader useColor rows.length total hsearch
  have htable := tame_flatMap fun line (hline : line ∈ tableLines term rows state) =>
    tame_printTableLine useColor state.selected (plain_tableLines state hrows line hline)
  have hnone : Tame (if rows.length = 0 then noProcesses state else []) := by
    split_ifs
    · exact tame_noProcesses hsearch
    · exact tame_nil
  have hyellow : Tame (if state.notice ≠ [] then
      moveTo (aboutRow term + 5) 2 ++ styled useColor .yellow state.notice else []) := by
    split_ifs
    · exact ⟨by simp [hnotice], by simp⟩
    · exact tame_nil
  have hfooter : Tame (processesFooter useColor term) := tame_processesFooter useColor
  have hheading : Tame (styled useColor .cyan (ascii "ABOUT THIS PROCESS")) :=
    tame_styled useColor _ (plain_literal _ rfl)
  have hruled := ((((tame_clearScreen.append hheader).append htable).append hnone).append
    (tame_moveTo (aboutRow term) 2)).append (tame_printRule (term.cols - 3))
  unfold renderProcesses
  refine ((((hruled.append (tame_moveTo _ _)).append hheading).append ?_).append hyellow).append
    hfooter
  split
  · exact tame_aboutProcess _ (hrows _ (List.mem_of_getElem? ‹_›))
  · exact tame_nil

theorem tame_renderProcessSearch {state : AppState} (h : Plain state.searchDraft) :
    Tame (renderProcessSearch useColor state term) := by
  unfold renderProcessSearch
  constructor
  · simp [h]
    and_intros <;> exact plain_literal _ rfl
  · simp

theorem tame_renderProcessDetail {detail : ProcessDetail} (hname : Plain detail.row.name)
    (hcommand : Plain detail.command) : Tame (renderProcessDetail useColor detail term) := by
  unfold renderProcessDetail
  constructor
  · simp [hname, plain_precision hcommand, plain_teachingStateName, plain_teachingStateExplanation]
    and_intros <;> exact plain_literal _ rfl
  · simp

theorem tame_learningBody (row : ProcessRow) : Tame (learningBody useColor row) := by
  unfold learningBody
  constructor
  · simp [plain_teachingStateName, plain_teachingStateExplanation]
    and_intros <;> exact plain_literal _ rfl
  · simp

theorem tame_renderProcessLearning {detail : ProcessDetail} (hname : Plain detail.row.name) :
    Tame (renderProcessLearning useColor detail term) := by
  have hbody := tame_learningBody useColor detail.row
  unfold renderProcessLearning
  constructor
  · simp [hname, hbody.draws]
    and_intros <;> exact plain_literal _ rfl
  · simp [hbody.settles]

theorem tame_renderConfirm {detail : ProcessDetail} (hname : Plain detail.row.name)
    (force : Bool) : Tame (renderConfirm useColor detail term force) := by
  unfold renderConfirm confirmBody
  constructor
  · split_ifs <;> simp [hname] <;> and_intros <;> exact plain_literal _ rfl
  · split_ifs <;> simp

theorem tame_printLiveContext (view : Overview) (concept : Nat) :
    Tame (printLiveContext view concept) := by
  unfold printLiveContext
  constructor
  · split_ifs <;> simp [plain_cpuStatus, plain_loadStatus] <;> and_intros <;> exact plain_literal _ rfl
  · simp

theorem tame_liveNow (view : Overview) : Tame (liveNow useColor view) := by
  unfold liveNow
  constructor
  · split_ifs <;> simp <;> and_intros <;> exact plain_literal _ rfl
  · split_ifs <;> simp

theorem tame_menuLine (selected i : Nat) : Tame (menuLine useColor selected i) := by
  unfold menuLine
  split
  · exact tame_nil
  · have htopic := plain_topic ‹_›
    constructor
    · split_ifs <;> simp [htopic.title, htopic.summary] <;> and_intros <;> exact plain_literal _ rfl
    · split_ifs <;> simp

theorem tame_renderLearnMenu (state : AppState) : Tame (renderLearnMenu useColor state term) := by
  have hlive : Tame (if state.viewOk then liveNow useColor state.view else []) := by
    split_ifs
    · exact tame_liveNow useColor state.view
    · exact tame_nil
  have hmenu := tame_flatMap fun i (_ : i ∈ List.range teachCount) =>
    tame_menuLine useColor state.learnSelected i
  unfold renderLearnMenu
  constructor
  · simp only [draws_append, hlive.draws, hmenu.draws, draws_clearScreen, draws_moveTo,
      draws_printRule, draws_styled, draws_say, draws_printKey, true_and, and_true]
    and_intros <;> exact plain_literal _ rfl
  · simp [hlive.settles, hmenu.settles]

theorem plain_placed {width : Nat} {text : Bytes} {lines : List Bytes} (h : Plain text)
    (hwraps : Text.Wraps isSpace width text lines) : ∀ line ∈ lines, Plain line := by
  intro line hline b hb
  by_cases hspace : isSpace b = true
  · rw [eq_of_beq hspace]
    rfl
  · have hkept : b ∈ lines.flatten.filter (fun a => !isSpace a) :=
      List.mem_filter.mpr ⟨List.mem_flatten.mpr ⟨line, hline, hb⟩, by simpa using hspace⟩
    rw [hwraps.flatten] at hkept
    exact h b (List.mem_filter.mp hkept).1

theorem tame_wrapped (top : Int) {text : Bytes} (h : Plain text) :
    Tame (wrapped term top text).1 := by
  obtain ⟨lines, hprinted, hwraps⟩ := lesson_printed term top 4 text
  unfold wrapped
  rw [hprinted]
  refine tame_flatMap fun printed hmem => (tame_moveTo _ _).append (tame_out ?_)
  obtain ⟨i, hi, rfl⟩ := List.mem_mapIdx.mp hmem
  exact plain_placed h hwraps _ (List.getElem_mem hi)

theorem tame_lessonSection (top : Int) {heading : String} {text : Bytes}
    (hheading : Plain (ascii heading)) (htext : Plain text) :
    Tame (lessonSection useColor term top heading text).1 :=
  ((tame_moveTo _ _).append (tame_styled useColor _ hheading)).append (tame_wrapped _ htext)

theorem tame_renderTopic {topic : TeachingTopic} (h : PlainTopic topic) (state : AppState) :
    Tame (renderTopic useColor topic state term) := by
  have hlive : Tame (if state.viewOk then
      moveTo 5 4 ++ styled useColor .cyan (ascii "ON YOUR MACHINE") ++
        moveTo 6 4 ++ printLiveContext state.view state.lesson
      else []) := by
    split_ifs
    · exact (((tame_moveTo _ _).append (tame_styled useColor _ (plain_literal _ rfl))).append
        (tame_moveTo _ _)).append (tame_printLiveContext _ _)
    · exact tame_nil
  have hmeaning (top : Int) : Tame (lessonSection useColor term top "WHAT IT MEANS" topic.what).1 :=
    tame_lessonSection useColor top (plain_literal _ rfl) h.what
  have hcaring (top : Int) : Tame (lessonSection useColor term top "WHEN TO CARE" topic.why).1 :=
    tame_lessonSection useColor top (plain_literal _ rfl) h.why
  have hshowing (top : Int) : Tame (lessonSection useColor term top "HOW LINUX SHOWS IT" topic.how).1 :=
    tame_lessonSection useColor top (plain_literal _ rfl) h.how
  have htrying (top : Int) : Tame (lessonSection useColor term top "TRY IT" topic.tryIt).1 :=
    tame_lessonSection useColor top (plain_literal _ rfl) h.tryIt
  unfold renderTopic
  dsimp only
  constructor
  · simp only [draws_append, hlive.draws, (hmeaning _).draws, (hcaring _).draws,
      (hshowing _).draws, (htrying _).draws, draws_clearScreen, draws_moveTo, draws_printRule,
      draws_styled, draws_say, draws_printKey, plain_append, h.title, h.summary, h.source,
      true_and, and_true]
    and_intros <;> exact plain_literal _ rfl
  · simp only [behind_append, hlive.settles, (hmeaning _).settles, (hcaring _).settles,
      (hshowing _).settles, (htrying _).settles, behind_clearScreen, behind_moveTo,
      behind_printRule, behind_styled, behind_say, behind_printKey]

theorem tame_renderLesson (state : AppState) : Tame (renderLesson useColor state term) := by
  unfold renderLesson
  split
  · exact tame_nil
  · exact tame_renderTopic useColor (plain_topic ‹_›) state

theorem tame_render (history : MetricHistory) {frame : Frame}
    (h : ∀ text ∈ outside frame.drawing, Plain text) :
    Tame (render r useColor history frame) := by
  obtain ⟨time, term, drawing⟩ := frame
  unfold render
  cases drawing with
  | overview view => exact tame_drawOverview r useColor h
  | processes rows total state =>
    simp only [outside, List.forall_mem_append, List.forall_mem_map, List.forall_mem_cons,
      List.not_mem_nil, false_implies, implies_true, and_true] at h
    exact tame_renderProcesses useColor h.1 h.2.1 h.2.2
  | processSearch state => exact tame_renderProcessSearch useColor (h _ List.mem_cons_self)
  | detail shown =>
    exact tame_renderProcessDetail useColor (h _ List.mem_cons_self)
      (h _ (List.mem_cons_of_mem _ List.mem_cons_self))
  | processLearning shown => exact tame_renderProcessLearning useColor (h _ List.mem_cons_self)
  | learnMenu state => exact tame_renderLearnMenu useColor state
  | lesson state => exact tame_renderLesson useColor state
  | confirm shown force => exact tame_renderConfirm useColor (h _ List.mem_cons_self) force

theorem clears_append {first : List Piece} (second : List Piece) (h : clearScreen <+: first) :
    clearScreen <+: first ++ second := h.trans (List.prefix_append _ _)

/-- Every frame erases the page first, but the one of a lesson that there is not. -/
theorem render_clears (history : MetricHistory) {frame : Frame}
    (h : ∀ state, frame.drawing = .lesson state → state.lesson < teachCount) :
    clearScreen <+: render r useColor history frame := by
  obtain ⟨time, term, drawing⟩ := frame
  unfold render
  cases drawing with
  | overview view =>
    dsimp only
    unfold drawOverview renderOverview
    split_ifs
    · repeat apply clears_append
      exact List.prefix_rfl
    · dsimp only
      repeat apply clears_append
      exact List.prefix_rfl
  | lesson state =>
    have hlt : state.lesson < topics.length := h state rfl
    have hget : teachingGet state.lesson = some topics[state.lesson] := List.getElem?_eq_getElem hlt
    dsimp only
    unfold renderLesson
    rw [hget]
    unfold renderTopic
    dsimp only
    repeat apply clears_append
    exact List.prefix_rfl
  | _ =>
    dsimp only
    first
      | unfold renderProcesses
      | unfold renderProcessSearch
      | unfold renderProcessDetail
      | unfold renderProcessLearning
      | unfold renderLearnMenu
      | unfold renderConfirm
    repeat apply clears_append
    exact List.prefix_rfl

end Frames

end RookieTop.Drawn
