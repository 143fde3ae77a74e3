import RookieTop.Main

/-! Without color the program prints the same, less the styles. -/
namespace RookieTop.Uncolored

open CLib Text Sys ProcessList CollectOverview Explorer App RunInteractive PrintWrapped
  RenderProcesses Teaching Render Drawn Contained Main

open History (Rounding padding cells)

variable (r : Rounding)

theorem unstyled_flatMap {α : Type} {f g : α → List Piece} {items : List α}
    (h : ∀ item ∈ items, unstyled (f item) = g item) :
    unstyled (items.flatMap f) = items.flatMap g := by
  induction items with
  | nil => rfl
  | cons item items ih =>
    obtain ⟨hitem, hitems⟩ := List.forall_mem_cons.mp h
    rw [List.flatMap_cons, List.flatMap_cons, unstyled_append, hitem, ih hitems]

@[simp] theorem unstyled_out (text : Bytes) : unstyled (out text) = out text := rfl

@[simp] theorem unstyled_say (text : String) : unstyled (say text) = say text := rfl

@[simp] theorem unstyled_moveTo (row col : Int) : unstyled (moveTo row col) = moveTo row col := rfl

@[simp] theorem unstyled_clearScreen : unstyled clearScreen = clearScreen := rfl

@[simp] theorem unstyled_printRule (width : Int) : unstyled (printRule width) = printRule width := rfl

@[simp] theorem unstyled_ansi (code : AnsiCode) : unstyled (ansi true code) = ansi false code := by
  cases code <;> rfl

@[simp] theorem unstyled_styled (code : AnsiCode) (text : Bytes) :
    unstyled (styled true code text) = styled false code text := by
  unfold styled
  simp

@[simp] theorem unstyled_printSection (name : String) :
    unstyled (printSection true name) = printSection false name := unstyled_styled _ _

@[simp] theorem unstyled_printKey (key label : String) (color : AnsiCode) :
    unstyled (printKey true key label color) = printKey false key label color := by
  unfold printKey
  simp

@[simp] theorem unstyled_printMetric (name : String) (percent : ℚ) (status : Bytes)
    (color : AnsiCode) (width : Int) :
    unstyled (printMetric r true name percent status color width) =
      printMetric r false name percent status color width := by
  unfold printMetric printBar
  simp

@[simp] theorem unstyled_printHistory (label : String) (values : List ℚ) (count width : Nat)
    (color : AnsiCode) :
    unstyled (printHistory r true label values count width color) =
      printHistory r false label values count width color := by
  unfold printHistory
  simp

variable {term : TerminalSize}

theorem unstyled_renderCompact (view : Overview) :
    unstyled (renderCompact r true view) = renderCompact r false view := by
  unfold renderCompact printInsight
  split_ifs <;> simp

theorem unstyled_overviewRow (layout : OverviewLayout) (view : Overview) (i : Nat) :
    unstyled (overviewRow true layout view i) = overviewRow false layout view i := by
  unfold overviewRow
  generalize (if view.cpuProcessOk then view.cpuTop[i]? else none) = cpu
  generalize (if view.memoryProcessOk then view.memoryTop[i]? else none) = memory
  cases cpu <;> cases memory <;> by_cases hfirst : i = 0 <;> simp [hfirst]

theorem unstyled_drawOverview (history : MetricHistory) (view : Overview) :
    unstyled (drawOverview r true history view term) =
      drawOverview r false history view term := by
  have hheader : unstyled (overviewHeader r true term view) =
      overviewHeader r false term view := by
    unfold overviewHeader
    split_ifs <;> simp
  have hsystem (layout : OverviewLayout) : unstyled (overviewSystem r true layout view) =
      overviewSystem r false layout view := by
    unfold overviewSystem
    simp
  have hright (layout : OverviewLayout) : unstyled (overviewRightNow true layout view) =
      overviewRightNow false layout view := by
    unfold overviewRightNow
    split_ifs <;> simp
  have hrows (layout : OverviewLayout) :=
    unstyled_flatMap fun i (_ : i ∈ List.range layout.processRows) =>
      unstyled_overviewRow layout view i
  have hactivity (layout : OverviewLayout) : unstyled (overviewActivity r true layout history view) =
      overviewActivity r false layout history view := by
    unfold overviewActivity
    split_ifs <;> simp
  have hteaching (layout : OverviewLayout) : unstyled (overviewTeaching true layout view) =
      overviewTeaching false layout view := by
    unfold overviewTeaching
    dsimp only
    split_ifs <;> simp
  have hfooter : unstyled (overviewFooter true term) = overviewFooter false term := by
    unfold overviewFooter
    simp
  unfold drawOverview renderOverview
  split_ifs
  · simp [unstyled_renderCompact]
  · simp [hheader, hsystem, hright, hrows, hactivity, hteaching, hfooter]

theorem unstyled_renderProcesses (rows : List ProcessRow) (total : Nat) (state : AppState) :
    unstyled (renderProcesses true rows total state term) =
      renderProcesses false rows total state term := by
  have hheader : unstyled (processesHeader true term rows.length total state) =
      processesHeader false term rows.length total state := by
    unfold processesHeader
    split_ifs <;> simp
  have hline (line : TableLine) : unstyled (printTableLine true state.selected line) =
      printTableLine false state.selected line := by
    unfold printTableLine
    split_ifs <;> simp
  have hlines := unstyled_flatMap fun line (_ : line ∈ tableLines term rows state) => hline line
  have hnone : unstyled (noProcesses state) = noProcesses state := by
    unfold noProcesses
    split_ifs <;> simp
  have habout (row : Int) (selected : ProcessRow) :
      unstyled (aboutProcess row selected) = aboutProcess row selected := by
    unfold aboutProcess
    simp
  have hfooter : unstyled (processesFooter true term) = processesFooter false term := by
    unfold processesFooter
    simp
  unfold renderProcesses
  cases rows[state.selected]? <;> split_ifs <;> simp [hheader, hlines, hnone, habout, hfooter]

theorem unstyled_renderProcessSearch (state : AppState) :
    unstyled (renderProcessSearch true state term) = renderProcessSearch false state term := by
  unfold renderProcessSearch
  simp

theorem unstyled_renderProcessDetail (detail : ProcessDetail) :
    unstyled (renderProcessDetail true detail term) = renderProcessDetail false detail term := by
  unfold renderProcessDetail
  simp

theorem unstyled_renderProcessLearning (detail : ProcessDetail) :
    unstyled (renderProcessLearning true detail term) =
      renderProcessLearning false detail term := by
  unfold renderProcessLearning learningBody
  simp

theorem unstyled_renderConfirm (detail : ProcessDetail) (force : Bool) :
    unstyled (renderConfirm true detail term force) = renderConfirm false detail term force := by
  unfold renderConfirm confirmBody
  cases force <;> simp

theorem unstyled_renderLearnMenu (state : AppState) :
    unstyled (renderLearnMenu true state term) = renderLearnMenu false state term := by
  have hlive : unstyled (liveNow true state.view) = liveNow false state.view := by
    unfold liveNow
    split_ifs <;> simp
  have hline (i : Nat) : unstyled (menuLine true state.learnSelected i) =
      menuLine false state.learnSelected i := by
    unfold menuLine
    cases teachingGet i with
    | none => rfl
    | some topic => dsimp only; split_ifs <;> simp
  have hlines := unstyled_flatMap fun i (_ : i ∈ List.range teachCount) => hline i
  unfold renderLearnMenu
  split_ifs <;> simp [hlive, hlines]

theorem unstyled_wrapped (row : Int) (text : Bytes) :
    unstyled (wrapped term row text).1 = (wrapped term row text).1 := by
  unfold wrapped
  split
  · exact unstyled_flatMap fun line _ => by simp
  · rfl

theorem unstyled_renderLesson (state : AppState) :
    unstyled (renderLesson true state term) = renderLesson false state term := by
  have hsection (row : Int) (heading : String) (text : Bytes) :
      unstyled (lessonSection true term row heading text).1 =
          (lessonSection false term row heading text).1 := by
    unfold lessonSection
    simp [unstyled_wrapped]
  have hrow (row : Int) (heading : String) (text : Bytes) :
      (lessonSection true term row heading text).2 =
        (lessonSection false term row heading text).2 := rfl
  have hlive : unstyled (printLiveContext state.view state.lesson) =
      printLiveContext state.view state.lesson := rfl
  unfold renderLesson
  cases teachingGet state.lesson with
  | none => rfl
  | some topic =>
    dsimp only
    unfold renderTopic
    split_ifs <;> simp [hsection, hrow, hlive]

theorem unstyled_render (history : MetricHistory) (frame : Frame) :
    unstyled (render r true history frame) = render r false history frame := by
  obtain ⟨time, term, drawing⟩ := frame
  unfold render
  cases drawing with
  | overview view => exact unstyled_drawOverview r history view
  | processes rows total state => exact unstyled_renderProcesses rows total state
  | processSearch state => exact unstyled_renderProcessSearch state
  | detail shown => exact unstyled_renderProcessDetail shown
  | processLearning shown => exact unstyled_renderProcessLearning shown
  | learnMenu state => exact unstyled_renderLearnMenu state
  | lesson state => exact unstyled_renderLesson state
  | confirm shown force => exact unstyled_renderConfirm shown force

def withNoColor (launch : Launch) (noColor : Bool) : Launch := { launch with noColor := noColor }

section Runs

variable {env : Env} {launch : Launch} {found : Termios}

/-- What the second program does is what the first does, less the sequences for styles that its
frames set. -/
structure Bleaches (colored plain : Option Int × Program) : Prop where
  code : plain.1 = colored.1
  held : plain.2.held = colored.2.held
  stderr : plain.2.stderr = colored.2.stderr
  stdout : ∃ before pieces after, before ∈ [[], entering] ∧ after ∈ [[], leaving] ∧
    colored.2.stdout = before ++ written pieces ++ after ∧
    plain.2.stdout = before ++ written (unstyled pieces) ++ after

theorem bleaches_refl {result : Option Int × Program} {text : Bytes}
    (h : result.2.stdout = text) : Bleaches result result := by
  have htext : result.2.stdout = [] ++ written (out text) ++ [] := by
    rw [h, List.nil_append, List.append_nil]
    exact (List.append_nil text).symm
  exact ⟨rfl, rfl, rfl, [], out text, [], List.mem_cons_self, List.mem_cons_self, htext, htext⟩

theorem bleaches_fputs {code : Int} {colored plain : List Piece} (h : unstyled colored = plain)
    (p : Program) (hempty : p.stdout = []) :
    Bleaches (some code, fputs (written colored) p) (some code, fputs (written plain) p) := by
  have hstdout (pieces : List Piece) : (fputs (written pieces) p).stdout =
      [] ++ written pieces ++ [] := by
    unfold fputs
    rw [hempty, List.append_nil]
  subst h
  exact ⟨rfl, rfl, rfl, [], colored, [], List.mem_cons_self, List.mem_cons_self, hstdout _,
    hstdout _⟩

theorem sent_entering : entering ∈ [[], entering] := List.mem_cons_of_mem _ List.mem_cons_self

theorem sent_leaving : leaving ∈ [[], leaving] := List.mem_cons_of_mem _ List.mem_cons_self

theorem useColor_plain : useColor (withNoColor launch true) = false := Bool.and_false _

theorem unstyled_drawing {draw : Bool → List Piece} (h : unstyled (draw true) = draw false) :
    unstyled (draw (useColor (withNoColor launch false))) =
      draw (useColor (withNoColor launch true)) := by
  rw [useColor_plain]
  cases useColor (withNoColor launch false) with
  | true => exact h
  | false => rw [← h, unstyled_unstyled]

theorem unstyled_passOutput (n : Nat) :
    unstyled (passOutput env (withNoColor launch false) n) =
      passOutput env (withNoColor launch true) n := by
  unfold passOutput
  cases passAt env n with
  | none => rfl
  | some pass =>
    dsimp only
    cases pass.frame with
    | none => rfl
    | some frame =>
      exact @unstyled_drawing launch (fun color => render launch.rounding color pass.state.history frame)
        (unstyled_render _ _ frame)

theorem unstyled_outputs (n : Nat) :
    unstyled (outputs env (withNoColor launch false) n).flatten =
      (outputs env (withNoColor launch true) n).flatten := by
  unfold outputs
  rw [← List.flatMap_def, ← List.flatMap_def]
  exact unstyled_flatMap fun k _ => unstyled_passOutput k

theorem monitor_uncolored (hmonitors : Monitors launch) (n : Nat) :
    Bleaches (main env (withNoColor launch false) n (Program.fresh found))
      (main env (withNoColor launch true) n (Program.fresh found)) := by
  have hruns (noColor : Bool) : Monitors (withNoColor launch noColor) := hmonitors
  rw [main_monitors (hruns false), main_monitors (hruns true)]
  have hcolored := @runInteractive_stands env (withNoColor launch false) found n
  have hplain := @runInteractive_stands env (withNoColor launch true) found n
  generalize runInteractive env (withNoColor launch false) n (Program.fresh found) = colored
    at hcolored ⊢
  generalize runInteractive env (withNoColor launch true) n (Program.fresh found) = plain
    at hplain ⊢
  have honoff (on : enters launch = true) (off : enters launch = false) : False :=
    Bool.false_ne_true (off.symm.trans on)
  cases hcolored with
  | refused off =>
    cases hplain with
    | refused _ => exact bleaches_refl rfl
    | inside on _ => exact (honoff on off).elim
    | left on _ => exact (honoff on off).elim
  | inside on going =>
    cases hplain with
    | refused off => exact (honoff on off).elim
    | inside _ _ =>
      refine ⟨rfl, (inside_held n).trans (inside_held n).symm,
        (looping_stderr _ n).trans (looping_stderr _ n).symm, entering,
        (outputs env (withNoColor launch false) n).flatten, [], sent_entering, List.mem_cons_self,
        ?_, ?_⟩
      · rw [inside_stdout, List.append_nil]
      · rw [inside_stdout, unstyled_outputs, List.append_nil]
    | left _ ended => cases going.symm.trans ended
  | left on ended =>
    cases hplain with
    | refused off => exact (honoff on off).elim
    | inside _ going => cases going.symm.trans ended
    | left _ ended' =>
      cases ended.symm.trans ended'
      have hheld (noColor : Bool) := @left_held env (withNoColor launch noColor) found n
      refine ⟨rfl, (hheld true).trans (hheld false).symm, (left_stderr n).trans (left_stderr n).symm,
        entering, (outputs env (withNoColor launch false) n).flatten, leaving, sent_entering,
        sent_leaving, left_stdout n, ?_⟩
      rw [left_stdout, unstyled_outputs]

theorem print_uncolored (hmonitors : ¬ Monitors launch) (n : Nat) :
    Bleaches (main env (withNoColor launch false) n (Program.fresh found))
      (main env (withNoColor launch true) n (Program.fresh found)) := by
  have honce (once : Bool) (hquiet : interactive launch once = false) :
      Bleaches (runMonitor env (withNoColor launch false) once n (Program.fresh found))
        (runMonitor env (withNoColor launch true) once n (Program.fresh found)) := by
    have hquiet (noColor : Bool) : interactive (withNoColor launch noColor) once = false := hquiet
    unfold runMonitor
    rw [hquiet, hquiet, Bool.not_false, if_pos rfl, if_pos rfl]
    cases (collectOverview env).value 0 with
    | none => exact bleaches_refl rfl
    | some view =>
      have hview := @unstyled_drawing launch (fun color => renderCompact launch.rounding color view)
        (unstyled_renderCompact _ view)
      exact bleaches_fputs hview _ rfl
  have hargv (noColor : Bool) : (withNoColor launch noColor).argv = launch.argv := rfl
  unfold main
  rw [hargv, hargv]
  split_ifs with halone
  · exact honce false (Bool.eq_false_iff.mpr fun hint => hmonitors ⟨halone, hint⟩)
  · exact honce true rfl
  · exact bleaches_refl rfl
  · exact bleaches_refl rfl
  · exact bleaches_refl rfl

end Runs

end RookieTop.Uncolored
