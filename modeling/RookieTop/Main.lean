import RookieTop.Contained
import RookieTop.Lives

/-! The program from its start to its exit: what it does to the attributes of its terminal, and
every byte that it prints. -/
namespace RookieTop.Main

open CLib Text Sys CollectOverview App RunInteractive Passes Render Drawn Contained

structure Termios where
  iflag : UInt32
  oflag : UInt32
  cflag : UInt32
  lflag : UInt32
  cc : List UInt8
  deriving DecidableEq

def icanon : UInt32 := 0x2
def echo : UInt32 := 0x8
def icrnl : UInt32 := 0x100
def ixon : UInt32 := 0x400
def vtime : Nat := 5
def vmin : Nat := 6

/-- What the program is started with, and what it finds there. -/
structure Launch where
  argv : List Bytes
  outputTerminal : Bool
  inputTerminal : Bool
  noColor : Bool
  signals : Bool
  atexit : Bool
  tcgetattr : Bool
  /-- Whether setting the attributes succeeds, on the way in and on the way out. -/
  tcsetattrIn : Bool
  tcsetattrOut : Bool
  rounding : History.Rounding

structure Program where
  attributes : Termios
  stdout : Bytes
  stderr : Bytes
  /-- The attributes to restore, while the input is active. -/
  inputState : Option Termios
  terminalActive : Bool

def Program.fresh (attributes : Termios) : Program := ⟨attributes, [], [], none, false⟩

/-- To the alternate page, without a cursor, which is erased. -/
def entering : Bytes :=
  sequence (ascii "?1049") 104 ++ sequence (ascii "?25") 108 ++ sequence (ascii "2") 74 ++
    sequence [] 72

/-- No style, a cursor, and back to the page behind. -/
def leaving : Bytes :=
  sequence (ascii "0") 109 ++ sequence (ascii "?25") 104 ++ sequence (ascii "?1049") 108

section Functions

variable (env : Env) (launch : Launch)

def fputs (text : Bytes) (p : Program) : Program := { p with stdout := p.stdout ++ text }

def complain (text : String) (p : Program) : Program :=
  { p with stderr := p.stderr ++ ascii text ++ ascii "\n" }

def rawOf (saved : Termios) : Termios :=
  { saved with
    lflag := saved.lflag &&& ~~~(icanon ||| echo)
    iflag := saved.iflag &&& ~~~(ixon ||| icrnl)
    cc := (saved.cc.set vmin 0).set vtime 0 }

def terminalInputEnable (p : Program) : Option Program :=
  if launch.tcgetattr ∧ launch.tcsetattrIn then
    some { p with attributes := rawOf p.attributes, inputState := some p.attributes }
  else none

def terminalInputRestore (p : Program) : Program :=
  match p.inputState with
  | none => p
  | some saved =>
    { p with
      attributes := if launch.tcsetattrOut then saved else p.attributes
      inputState := none }

def restoreTerminal (p : Program) : Program :=
  let p := terminalInputRestore launch p
  if p.terminalActive then
    { fputs leaving p with terminalActive := false }
  else p

def useColor : Bool := launch.outputTerminal && !launch.noColor

def passOutput (n : Nat) : List Piece :=
  match passAt env n with
  | none => []
  | some pass =>
    match pass.frame with
    | none => []
    | some frame =>
      render launch.rounding (useColor launch) pass.state.history frame

def looping (entered : Program) : Nat → Program
  | 0 => entered
  | n + 1 => fputs (written (passOutput env launch n)) (looping entered n)

/-- The exit code, if the program has come to it, and the program then. -/
def runInteractive (n : Nat) (p : Program) : Option Int × Program :=
  if !launch.signals then
    (some 1, complain "rookietop: could not install signal handler" p)
  else if !launch.atexit then
    (some 1, complain "rookietop: could not register terminal cleanup" p)
  else
    match terminalInputEnable launch p with
    | none =>
      (some 1, restoreTerminal launch (complain "rookietop: could not enable terminal input" p))
    | some p =>
      let p := looping env launch { fputs entering p with terminalActive := true } n
      match (RunInteractive.runInteractive env n).exit with
      | none => (none, p)
      | some code => (some code, restoreTerminal launch p)

def interactive (forceOnce : Bool) : Bool :=
  !forceOnce && launch.outputTerminal && launch.inputTerminal

def runMonitor (forceOnce : Bool) (n : Nat) (p : Program) : Option Int × Program :=
  if !interactive launch forceOnce then
    match (collectOverview env).value 0 with
    | none => (some 1, complain "rookietop: could not read system data" p)
    | some view =>
      (some 0, fputs (written (renderCompact launch.rounding (useColor launch) view)) p)
  else runInteractive env launch n p

def helpLines : List String :=
  ["RookieTop - understand Linux by watching your own system",
    "",
    "Usage: rookietop [OPTION]",
    "",
    "Options:",
    "  --once           Print one snapshot and exit",
    "  -h, --help       Show this help",
    "  -V, --version    Show version",
    "",
    "Interactive keys:",
    "  ? or l           Explain what you are looking at",
    "  p                Open Process Explorer",
    "  Up/Down          Move through a list",
    "  /                Search processes by name or PID",
    "  c/m/p/n          Sort processes by CPU/memory/PID/name",
    "  Enter            Open the selected item",
    "  k                Ask a process to stop cleanly",
    "  K                Force-kill after a separate warning",
    "  Esc              Go back",
    "  q                Quit",
    "",
    "Set NO_COLOR to disable ANSI colors."]

/-- `puts`, line by line. -/
def printHelp (p : Program) : Program :=
  fputs (helpLines.flatMap fun line => ascii line ++ ascii "\n") p

/-- `main`, as far as it comes in `n` passes of the loop. -/
def main (n : Nat) (p : Program) : Option Int × Program :=
  if launch.argv.length = 1 then runMonitor env launch false n p
  else if launch.argv.length = 2 ∧ launch.argv[1]? = some (ascii "--once") then
    runMonitor env launch true n p
  else if launch.argv.length = 2 ∧
      (launch.argv[1]? = some (ascii "-h") ∨ launch.argv[1]? = some (ascii "--help")) then
    (some 0, printHelp p)
  else if launch.argv.length = 2 ∧
      (launch.argv[1]? = some (ascii "-V") ∨ launch.argv[1]? = some (ascii "--version")) then
    (some 0, fputs (rookietopVersion ++ ascii "\n") p)
  else (some 2, complain "rookietop: unknown option" p)

end Functions

section Keeps

variable {env : Env} {launch : Launch}

def Program.held (p : Program) : Termios × Option Termios × Bool :=
  (p.attributes, p.inputState, p.terminalActive)

theorem looping_held (entered : Program) (n : Nat) :
    (looping env launch entered n).held = entered.held := by
  induction n with
  | zero => rfl
  | succ n ih => exact ih

theorem looping_stderr (entered : Program) (n : Nat) :
    (looping env launch entered n).stderr = entered.stderr := by
  induction n with
  | zero => rfl
  | succ n ih => exact ih

def outputs (env : Env) (launch : Launch) (n : Nat) : List (List Piece) :=
  (List.range n).map (passOutput env launch)

theorem looping_stdout (entered : Program) (n : Nat) :
    (looping env launch entered n).stdout =
      entered.stdout ++ written (outputs env launch n).flatten := by
  induction n with
  | zero => exact (List.append_nil _).symm
  | succ n ih =>
    have hstep : (looping env launch entered (n + 1)).stdout =
        (looping env launch entered n).stdout ++ written (passOutput env launch n) := rfl
    have houtputs : outputs env launch (n + 1) =
        outputs env launch n ++ [passOutput env launch n] := by
      unfold outputs
      rw [List.range_succ, List.map_append, List.map_singleton]
    rw [hstep, ih, houtputs, List.flatten_append, written_append, List.flatten_singleton,
      List.append_assoc]

theorem restoreTerminal_idle {p : Program} (hinput : p.inputState = none)
    (hactive : p.terminalActive = false) : restoreTerminal launch p = p := by
  unfold restoreTerminal terminalInputRestore
  rw [hinput]
  dsimp only
  rw [hactive, if_neg Bool.false_ne_true]

theorem restoreTerminal_active {p : Program} {saved : Termios} (hinput : p.inputState = some saved)
    (hactive : p.terminalActive = true) :
    restoreTerminal launch p =
      { fputs leaving p with
        attributes := if launch.tcsetattrOut then saved else p.attributes
        inputState := none
        terminalActive := false } := by
  unfold restoreTerminal terminalInputRestore
  rw [hinput]
  dsimp only
  rw [hactive, if_pos rfl]
  rfl

end Keeps

section Interactive

variable (env : Env) (launch : Launch) (found : Termios)

def enters : Bool := launch.signals && launch.atexit && launch.tcgetattr && launch.tcsetattrIn

def refusal : Bytes :=
  if !launch.signals then ascii "rookietop: could not install signal handler" ++ ascii "\n"
  else if !launch.atexit then ascii "rookietop: could not register terminal cleanup" ++ ascii "\n"
  else ascii "rookietop: could not enable terminal input" ++ ascii "\n"

def inside (n : Nat) : Program :=
  looping env launch ⟨rawOf found, entering, [], some found, true⟩ n

/-- How an interactive run stands. -/
inductive Stands (n : Nat) : Option Int × Program → Prop
  | refused (off : enters launch = false) :
      Stands n (some 1, { Program.fresh found with stderr := refusal launch })
  | inside (on : enters launch = true) (going : (RunInteractive.runInteractive env n).exit = none) :
      Stands n (none, inside env launch found n)
  | left (on : enters launch = true) {code : Int}
      (ended : (RunInteractive.runInteractive env n).exit = some code) :
      Stands n (some code, restoreTerminal launch (inside env launch found n))

variable {env launch found}

theorem inside_held (n : Nat) :
    (inside env launch found n).held = (rawOf found, some found, true) := looping_held _ n

theorem inside_stdout (n : Nat) :
    (inside env launch found n).stdout = entering ++ written (outputs env launch n).flatten :=
  looping_stdout _ n

theorem left_eq (n : Nat) :
    restoreTerminal launch (inside env launch found n) =
      { fputs leaving (inside env launch found n) with
        attributes := if launch.tcsetattrOut then found else rawOf found
        inputState := none
        terminalActive := false } := by
  obtain ⟨hattributes, hheld⟩ := Prod.mk.inj (@inside_held env launch found n)
  obtain ⟨hinput, hactive⟩ := Prod.mk.inj hheld
  rw [restoreTerminal_active hinput hactive, hattributes]

theorem left_held (n : Nat) : (restoreTerminal launch (inside env launch found n)).held =
    (if launch.tcsetattrOut then found else rawOf found, none, false) := by
  rw [left_eq]
  rfl

theorem left_stderr (n : Nat) :
    (restoreTerminal launch (inside env launch found n)).stderr = [] := by
  rw [left_eq]
  exact looping_stderr _ n

theorem left_stdout (n : Nat) : (restoreTerminal launch (inside env launch found n)).stdout =
    entering ++ written (outputs env launch n).flatten ++ leaving := by
  rw [left_eq]
  exact congrArg (· ++ leaving) (inside_stdout n)

theorem runInteractive_stands (n : Nat) :
    Stands env launch found n (runInteractive env launch n (Program.fresh found)) := by
  have hrefused (off : enters launch = false) (text : Bytes) (htext : text = refusal launch) :
      Stands env launch found n (some 1, { Program.fresh found with stderr := text }) :=
    htext ▸ .refused off
  unfold runInteractive
  split_ifs with hsignals hatexit
  · refine hrefused ?_ _ ?_
    · simp_all [enters]
    · unfold refusal
      rw [if_pos hsignals]
      rfl
  · refine hrefused ?_ _ ?_
    · simp_all [enters]
    · unfold refusal
      rw [if_neg hsignals, if_pos hatexit]
      rfl
  · unfold terminalInputEnable
    split_ifs with hinput
    · have hon : enters launch = true := by simp_all [enters]
      cases hexit : (RunInteractive.runInteractive env n).exit with
      | none => exact .inside hon hexit
      | some code => exact .left hon hexit
    · dsimp only
      rw [restoreTerminal_idle rfl rfl]
      refine hrefused ?_ _ ?_
      · simp_all [enters]
      · unfold refusal
        rw [if_neg hsignals, if_neg hatexit]
        rfl

end Interactive

section Runs

variable {env : Env} {launch : Launch} {found : Termios}

def Monitors (launch : Launch) : Prop :=
  launch.argv.length = 1 ∧ interactive launch false = true

theorem main_monitors (h : Monitors launch) (n : Nat) (p : Program) :
    main env launch n p = runInteractive env launch n p := by
  unfold main runMonitor
  rw [if_pos h.1, h.2]
  rfl

/-- Everything else prints something and ends. -/
inductive Printed (env : Env) (launch : Launch) (p : Program) : Option Int × Program → Prop
  | complaint (code : Int) (text : Bytes) :
      Printed env launch p (some code, { p with stderr := text })
  | snapshot (view : Overview) (read : (collectOverview env).value 0 = some view) :
      Printed env launch p
        (some 0, fputs (written (renderCompact launch.rounding (useColor launch) view)) p)
  | help : Printed env launch p (some 0, printHelp p)
  | version : Printed env launch p (some 0, fputs (rookietopVersion ++ ascii "\n") p)

theorem main_printed (h : ¬ Monitors launch) (n : Nat) (p : Program) :
    Printed env launch p (main env launch n p) := by
  have honce (once : Bool) (hquiet : interactive launch once = false) :
      Printed env launch p (runMonitor env launch once n p) := by
    unfold runMonitor
    rw [hquiet, Bool.not_false, if_pos rfl]
    cases hread : (collectOverview env).value 0 with
    | none => exact .complaint _ _
    | some view => exact .snapshot view hread
  unfold main
  split_ifs with halone
  · exact honce false (Bool.eq_false_iff.mpr fun hint => h ⟨halone, hint⟩)
  · exact honce true rfl
  · exact .help
  · exact .version
  · exact .complaint _ _

theorem printed_held {p : Program} {result : Option Int × Program}
    (h : Printed env launch p result) : result.2.held = p.held := by
  cases h <;> rfl

def watched : Env := Lives.attended [] [(30, 112), (60, 113)]

def attending : Launch where
  argv := [ascii "rookietop"]
  outputTerminal := true
  inputTerminal := true
  noColor := false
  signals := true
  atexit := true
  tcgetattr := true
  tcsetattrIn := true
  tcsetattrOut := true
  rounding := History.Rounding.exact

def cooked : Termios := ⟨ixon ||| icrnl, 0, 0, icanon ||| echo, List.replicate 32 1⟩

theorem watched_ends : (main watched attending 3 (Program.fresh cooked)).1 = some 0 := by
  decide +kernel

theorem eq_pair {α β : Type} {x : α × β} {first : α} (h : x.1 = first) : x = (first, x.2) :=
  h ▸ rfl

end Runs

section Contained

variable {env : Env} {launch : Launch} {found : Termios}

/-- What a pass may print: nothing, or a frame that erases the page, and leaves no style on. -/
structure Framed (pieces : List Piece) : Prop where
  clears : pieces = [] ∨ clearScreen <+: pieces
  tame : Tame pieces

/-- What the program has printed so far, and how the terminal is set meanwhile. -/
inductive Contains (launch : Launch) (found : Termios) : Option Int × Program → Prop
  | refused {code : Int} {p : Program} (monitors : Monitors launch) (attributes : p.attributes = found)
      (silent : p.stdout = []) : Contains launch found (some code, p)
  | running {p : Program} {frames : List (List Piece)} (monitors : Monitors launch)
      (attributes : p.attributes = rawOf found) (framed : ∀ frame ∈ frames, Framed frame)
      (sent : p.stdout = entering ++ written frames.flatten) : Contains launch found (none, p)
  | ended {code : Int} {p : Program} {frames : List (List Piece)} (monitors : Monitors launch)
      (attributes : p.attributes = found) (framed : ∀ frame ∈ frames, Framed frame)
      (sent : p.stdout = entering ++ written frames.flatten ++ leaving) :
      Contains launch found (some code, p)
  | printed {code : Int} {p : Program} {pieces : List Piece} (once : ¬ Monitors launch)
      (attributes : p.attributes = found) (tame : Tame pieces) (sent : p.stdout = written pieces) :
      Contains launch found (some code, p)

variable (hplain : PlainAnswers env)

include hplain

theorem passOutput_framed (n : Nat) : Framed (passOutput env launch n) := by
  unfold passOutput
  split
  · exact ⟨Or.inl rfl, tame_nil⟩
  · rename_i pass hpass
    split
    · exact ⟨Or.inl rfl, tame_nil⟩
    · rename_i frame hframe
      have hpass := passAt_plain hplain hpass
      exact ⟨Or.inr (render_clears _ _ _ fun shown hshown => hpass.lesson frame shown hframe hshown),
        tame_render _ _ _ (hpass.drawn frame hframe)⟩

theorem outputs_framed (n : Nat) : ∀ frame ∈ outputs env launch n, Framed frame := by
  intro frame hframe
  obtain ⟨k, -, rfl⟩ := List.mem_map.mp hframe
  exact passOutput_framed hplain k

theorem printed_tame {result : Option Int × Program}
    (h : Printed env launch (Program.fresh found) result) :
    ∃ pieces, Tame pieces ∧ result.2.stdout = written pieces := by
  have htext {text : Bytes} (h : Plain text) : ∃ pieces, Tame pieces ∧ text = written pieces :=
    ⟨out text, tame_out h, (List.append_nil text).symm⟩
  cases h with
  | complaint code text => exact ⟨[], tame_nil, rfl⟩
  | snapshot view read =>
    have hview := collectOverview_plain hplain read
    exact ⟨_, tame_renderCompact launch.rounding (useColor launch) hview.cpu hview.memory, rfl⟩
  | help =>
    refine htext fun b hb => ?_
    obtain ⟨line, hline, hb⟩ := List.mem_flatMap.mp hb
    have hlines : ∀ line ∈ helpLines, Plain (ascii line ++ ascii "\n") := by
      simp only [helpLines, List.forall_mem_cons, List.not_mem_nil, false_implies, implies_true,
        plain_append, and_true]
      and_intros <;> exact plain_literal _ rfl
    exact hlines line hline b hb
  | version =>
    exact @htext (rookietopVersion ++ ascii "\n")
      (plain_append.mpr ⟨plain_literal _ rfl, plain_literal _ rfl⟩)

omit hplain

theorem watched_plain : PlainAnswers watched := by
  have hspaced : Plain (ascii "cpu 0 0 0 ") := plain_literal _ rfl
  have hmeminfo : Plain Lives.meminfoText := plain_literal _ rfl
  refine ⟨fun opened read path => PlainFile.of_plain ?_, fun n name h => ?_, fun n name h => ?_⟩
  · cases path with
    | stat =>
      change Plain (ascii "cpu 0 0 0 " ++ decimal read ++ [10])
      simp only [plain_append, hspaced, plain_decimal, true_and]
      exact plain_replicate 1 rfl
    | meminfo => exact hmeminfo
    | _ => exact plain_nil
  · cases h
  · cases h

end Contained

end RookieTop.Main
