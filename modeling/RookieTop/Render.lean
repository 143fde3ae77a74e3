import RookieTop.History
import RookieTop.PrintWrapped
import RookieTop.RenderProcesses
import RookieTop.RunInteractive
import RookieTop.Teaching
import RookieTop.Text.Output

/-! The render functions: what they print, call by call. -/
namespace RookieTop.Render

open CLib Text Sys ProcessList CollectOverview DiagnosisBuild Explorer App RunInteractive
  PrintWrapped RenderProcesses Teaching

open History (Rounding padding cells)

def rookietopVersion : Bytes := ascii "0.1.0-alpha.8"
def minFullCols : Int := 100
def minFullRows : Int := 32
def bytesPerMib : ℚ := 1048576

inductive AnsiCode where
  | empty
  | reset
  | bold
  | dim
  | green
  | yellow
  | red
  | cyan
  | reverse
  deriving DecidableEq

def AnsiCode.pieces : AnsiCode → List Piece
  | .empty => []
  | .reset => [.style (ascii "0")]
  | .bold => [.style (ascii "1")]
  | .dim => [.style (ascii "2")]
  | .green => [.style (ascii "32")]
  | .yellow => [.style (ascii "33")]
  | .red => [.style (ascii "31")]
  | .cyan => [.style (ascii "36")]
  | .reverse => [.style (ascii "7")]

def out (text : Bytes) : List Piece := [.text text]
def say (text : String) : List Piece := out (ascii text)

def moveTo (row col : Int) : List Piece := [.move row col]
def clearScreen : List Piece := [.home, .below]
def printRule (width : Int) : List Piece := out (List.replicate width.toNat 45)

/-- `%.*s`: a negative precision is none. -/
def precision (width : Int) (text : Bytes) : Bytes := if width < 0 then text else text.take width.toNat

/-- The cast to an integer. -/
def truncate (q : ℚ) : Int := if q < 0 then -(-q).floor else q.floor

def cpuStatus (usage : ℚ) : Bytes :=
  if 90 ≤ usage then ascii "High" else if 70 ≤ usage then ascii "Busy" else ascii "Normal"

def memoryStatus (usage : ℚ) : Bytes :=
  if 90 ≤ usage then ascii "Attention" else if 80 ≤ usage then ascii "Busy" else ascii "Normal"

def diskStatus (usage : ℚ) : Bytes :=
  if 95 ≤ usage then ascii "Critical" else if 85 ≤ usage then ascii "Attention" else ascii "Normal"

def metricColor (usage warn critical : ℚ) : AnsiCode :=
  if critical ≤ usage then .red else if warn ≤ usage then .yellow else .green

def loadStatus (view : Overview) : Bytes :=
  if 3 / 2 ≤ loadRatio view then ascii "High"
  else if 4 / 5 ≤ loadRatio view then ascii "Busy"
  else ascii "Light"

def statusText : OverallStatus → Bytes
  | .critical => ascii "CRITICAL"
  | .attention => ascii "ATTENTION"
  | .healthy => ascii "HEALTHY"

def overallColor (view : Overview) : AnsiCode :=
  match overallStatus view with
  | .critical => .red
  | .attention => .yellow
  | .healthy => .green

def diagnosisColor : DiagnosisFocus → AnsiCode
  | .healthy => .green
  | .disk => .red
  | _ => .yellow

def sortName : ProcessSort → Bytes
  | .cpu => ascii "CPU"
  | .pid => ascii "PID"
  | .name => ascii "name"
  | .memory => ascii "memory"

def footerRow (term : TerminalSize) : Int := term.rows - 2

variable (r : Rounding) (useColor : Bool)

def formatUptime (seconds : ℚ) (cap : Nat) : Bytes :=
  let totalMinutes := truncate (r.round (seconds / 60))
  let days := totalMinutes.tdiv 1440
  let hours := (totalMinutes.tdiv 60).tmod 24
  let minutes := totalMinutes.tmod 60
  snprintf cap <|
    if 0 < days then formatInt days ++ ascii "d " ++ padZero 2 (formatInt hours) ++ ascii "h"
    else if 0 < hours then formatInt hours ++ ascii "h " ++ padZero 2 (formatInt minutes) ++ ascii "m"
    else formatInt minutes ++ ascii "m"

def ansi (code : AnsiCode) : List Piece := if useColor then code.pieces else []

def styled (code : AnsiCode) (text : Bytes) : List Piece :=
  ansi useColor code ++ out text ++ ansi useColor .reset

def printSection (name : String) : List Piece := styled useColor .bold (ascii name)

def printKey (key label : String) (color : AnsiCode) : List Piece :=
  ansi useColor .bold ++ ansi useColor color ++ out (ascii "[" ++ ascii key ++ ascii "]") ++
    ansi useColor .reset ++ out (ascii " " ++ ascii label)

def printBar (percent : ℚ) (width : Int) (color : AnsiCode) : List Piece :=
  let filled := truncate (r.round (r.round (r.round (percent * width) / 100) + 1 / 2))
  let filled := if filled < 0 then 0 else filled
  let filled := if width < filled then width else filled
  say "[" ++ ansi useColor color ++ out (List.replicate filled.toNat 35) ++ ansi useColor .reset ++
    out (List.replicate (width - filled).toNat 46) ++ say "]"

def printMetric (name : String) (percent : ℚ) (status : Bytes) (color : AnsiCode)
    (barWidth : Int) : List Piece :=
  out (padRight 8 (ascii name) ++ ascii " ") ++ printBar r useColor percent barWidth color ++
    out (ascii " " ++ padLeft 5 (formatTenths percent) ++ ascii "%  ") ++
    styled useColor color status

def printHistory (label : String) (values : List ℚ) (count width : Nat) (color : AnsiCode) :
    List Piece :=
  out (padRight 7 (ascii label) ++ ascii " ") ++ ansi useColor .dim ++ out (padding count width) ++
    ansi useColor .reset ++ ansi useColor color ++ out (cells r values count width) ++
    ansi useColor .reset

def printInsight (view : Overview) : List Piece :=
  let diagnosis := buildViewDiagnosis view
  styled useColor (diagnosisColor diagnosis.focus) diagnosis.headline ++
    out (ascii "\n" ++ diagnosis.detail)

def renderCompact (view : Overview) : List Piece :=
  out (ascii "RookieTop " ++ rookietopVersion ++ ascii "  " ++ statusText (overallStatus view) ++
      ascii "\n") ++
    printRule 64 ++ say "\n" ++
    printMetric r useColor "CPU" view.cpuPercent (cpuStatus view.cpuPercent) .empty 18 ++
    say "\n" ++
    printMetric r useColor "Memory" view.memoryPercent (memoryStatus view.memoryPercent) .empty 18 ++
    say "\n" ++
    printMetric r useColor "Disk" view.diskPercent (diskStatus view.diskPercent) .empty 18 ++
    say "\n" ++
    out (ascii "RAM      " ++ formatTenths (toGib view.memoryUsedKib) ++ ascii " / " ++
      formatTenths (toGib view.memory.totalKib) ++ ascii " GiB used | " ++
      formatTenths (toGib view.memory.availableKib) ++ ascii " GiB available\n") ++
    (if view.networkOk then
      out (ascii "Network  down " ++ formatHundredths (view.rxPerSec / bytesPerMib) ++
        ascii " MiB/s | up " ++ formatHundredths (view.txPerSec / bytesPerMib) ++ ascii " MiB/s\n")
    else []) ++
    say "\nWhat RookieTop notices\n" ++ printInsight useColor view ++
    say "\n\nRun RookieTop in a terminal and press ? when you want the deeper Linux explanation.\n"

structure OverviewLayout where
  width : Int
  right : Int
  barWidth : Int
  processRows : Nat
  activityRow : Int
  teachingRow : Int
  graphWidth : Int

def overviewLayout (term : TerminalSize) : OverviewLayout :=
  let width := term.cols - 3
  let split := (term.cols * 3).tdiv 5
  let barWidth := split - 29
  let processRows := if 40 ≤ term.rows then 6 else 4
  let graphWidth := width - 12
  let graphWidth := if (historyMax : Int) < graphWidth then (historyMax : Int) else graphWidth
  { width := width
    right := split + 2
    barWidth := if barWidth < 14 then 14 else barWidth
    processRows := processRows
    activityRow := 14 + processRows + 3
    teachingRow := term.rows - 8
    graphWidth := if graphWidth < 20 then 20 else graphWidth }

def overviewHeader (term : TerminalSize) (view : Overview) : List Piece :=
  let health := statusText (overallStatus view)
  moveTo 1 2 ++ styled useColor .bold (ascii "RookieTop") ++ say "  " ++
    styled useColor .dim rookietopVersion ++ say "  " ++
    styled useColor .cyan (ascii "YOUR LINUX, EXPLAINED") ++
    moveTo 1 (term.cols - health.length - 1) ++ styled useColor (overallColor view) health ++
    moveTo 2 2 ++
    (if view.hostOk then
      styled useColor .dim
        (view.host.hostname ++ ascii " | Linux " ++ view.host.kernelRelease ++ ascii " | " ++
          formatInt view.host.cores ++ ascii " CPU | up " ++
          formatUptime r view.host.uptimeSeconds 32 ++ ascii " | load " ++ formatHundredths view.host.load1 ++ ascii " " ++
          formatHundredths view.host.load5 ++ ascii " " ++ formatHundredths view.host.load15)
    else []) ++
    moveTo 3 2 ++ printRule (overviewLayout term).width

def overviewSystem (layout : OverviewLayout) (view : Overview) : List Piece :=
  moveTo 5 2 ++ printSection useColor "SYSTEM" ++
    moveTo 6 2 ++
    printMetric r useColor "CPU" view.cpuPercent (cpuStatus view.cpuPercent)
      (metricColor view.cpuPercent 70 95) layout.barWidth ++
    moveTo 7 2 ++
    printMetric r useColor "Memory" view.memoryPercent (memoryStatus view.memoryPercent)
      (metricColor view.memoryPercent 80 95) layout.barWidth ++
    moveTo 8 2 ++
    printMetric r useColor "Disk" view.diskPercent (diskStatus view.diskPercent)
      (metricColor view.diskPercent 85 95) layout.barWidth

def overviewRightNow (layout : OverviewLayout) (view : Overview) : List Piece :=
  moveTo 5 layout.right ++ printSection useColor "RIGHT NOW" ++
    moveTo 6 layout.right ++
    out (ascii "RAM      " ++ formatTenths (toGib view.memoryUsedKib) ++ ascii " / " ++
      formatTenths (toGib view.memory.totalKib) ++ ascii " GiB   " ++
      formatTenths (toGib view.memory.availableKib) ++ ascii " GiB available") ++
    moveTo 7 layout.right ++
    out (ascii "Root     " ++ formatTenths (bytesToGib view.diskUsedBytes) ++ ascii " / " ++
      formatTenths (bytesToGib view.disk.totalBytes) ++ ascii " GiB   " ++
      formatTenths (bytesToGib view.disk.availableBytes) ++ ascii " GiB available") ++
    moveTo 8 layout.right ++
    (if view.networkOk then
      out (ascii "Network  down " ++ formatHundredths (view.rxPerSec / bytesPerMib) ++
        ascii " MiB/s   up " ++ formatHundredths (view.txPerSec / bytesPerMib) ++ ascii " MiB/s")
    else say "Network  unavailable this sample") ++
    moveTo 9 layout.right ++
    (if view.hostOk then
      out (ascii "Load     " ++ formatHundredths view.host.load1 ++ ascii " / " ++
        formatInt view.host.cores ++ ascii " CPU   " ++ loadStatus view)
    else []) ++
    moveTo 10 layout.right ++
    (if view.hostOk ∧ view.host.thermalOk then
      out (ascii "Thermal  " ++ formatTenths view.host.thermalC ++ ascii " C   " ++
        view.host.thermalType)
    else styled useColor .dim (ascii "Thermal  not exposed by this system"))

def overviewRow (layout : OverviewLayout) (view : Overview) (i : Nat) : List Piece :=
  moveTo (14 + 1 + i) 2 ++
    (match if view.cpuProcessOk then view.cpuTop[i]? else none with
    | some info =>
      out (padRight 22 (info.name.take 22) ++ ascii " " ++
        padLeft 6 (formatHundredths info.cpuPercent) ++ ascii "%  pid " ++
        padRight 7 (formatInt info.pid))
    | none =>
      if i = 0 then styled useColor .dim (ascii "No process stood out in this short sample.")
      else []) ++
    moveTo (14 + 1 + i) layout.right ++
    match if view.memoryProcessOk then view.memoryTop[i]? else none with
    | some info =>
      out (padRight 22 (info.name.take 22) ++ ascii " " ++
        padLeft 7 (formatTenths (toMib info.rssKib)) ++ ascii " MiB  pid " ++
        padRight 7 (formatInt info.pid))
    | none => []

def overviewActivity (layout : OverviewLayout) (history : MetricHistory) (view : Overview) :
    List Piece :=
  let count := history.cpu.length
  if layout.activityRow + 2 < layout.teachingRow then
    moveTo layout.activityRow 2 ++ printSection useColor "RECENT ACTIVITY" ++ say "  " ++
      styled useColor .dim (ascii "~" ++ decimal count ++ ascii " samples") ++
      moveTo (layout.activityRow + 1) 2 ++
      printHistory r useColor "CPU" history.cpu count layout.graphWidth.toNat
        (metricColor view.cpuPercent 70 95) ++
      moveTo (layout.activityRow + 2) 2 ++
      printHistory r useColor "Memory" history.memory count layout.graphWidth.toNat
        (metricColor view.memoryPercent 80 95)
  else []

def overviewTeaching (layout : OverviewLayout) (view : Overview) : List Piece :=
  let diagnosis := buildViewDiagnosis view
  moveTo layout.teachingRow 2 ++ styled useColor .cyan (ascii "WHAT ROOKIETOP NOTICES") ++
    moveTo (layout.teachingRow + 1) 2 ++
    styled useColor (diagnosisColor diagnosis.focus) diagnosis.headline ++
    moveTo (layout.teachingRow + 2) 2 ++ out (precision layout.width diagnosis.detail) ++
    moveTo (layout.teachingRow + 3) 2 ++
    if diagnosis.focus = .healthy then
      say "Curious about a number? Press " ++ styled useColor .bold (ascii "?") ++
        say " to see how Linux produces it and try it yourself."
    else
      say "Want the deeper reason? Press " ++ styled useColor .bold (ascii "?") ++
        say "; RookieTop will start with the most relevant concept."

def overviewFooter (term : TerminalSize) : List Piece :=
  moveTo (footerRow term) 2 ++ printRule (overviewLayout term).width ++
    moveTo (footerRow term + 1) 2 ++ printKey useColor "?" "Explain" .cyan ++ say "   " ++
    printKey useColor "p" "Processes" .green ++ say "   " ++ printKey useColor "q" "Quit" .dim

def renderOverview (history : MetricHistory) (view : Overview)
    (term : TerminalSize) : List Piece :=
  let layout := overviewLayout term
  clearScreen ++ overviewHeader r useColor term view ++
    overviewSystem r useColor layout view ++ overviewRightNow useColor layout view ++
    moveTo 12 2 ++ printRule layout.width ++
    moveTo 14 2 ++ styled useColor .bold (ascii "BUSIEST CPU") ++
    moveTo 14 layout.right ++ styled useColor .bold (ascii "BIGGEST MEMORY USERS") ++
    (List.range layout.processRows).flatMap (overviewRow useColor layout view) ++
    overviewActivity r useColor layout history view ++ overviewTeaching useColor layout view ++
    overviewFooter useColor term

def drawOverview (history : MetricHistory) (view : Overview)
    (term : TerminalSize) : List Piece :=
  if term.cols < minFullCols ∨ term.rows < minFullRows then
    clearScreen ++ renderCompact r useColor view ++
      out (ascii "\nResize to at least " ++ formatInt minFullCols ++ ascii "x" ++
        formatInt minFullRows ++ ascii " for the full interactive layout.\n")
  else renderOverview r useColor history view term

def processesHeader (term : TerminalSize) (count total : Nat) (state : AppState) : List Piece :=
  moveTo 1 2 ++ styled useColor .bold (ascii "RookieTop") ++ say "  " ++
    styled useColor .cyan (ascii "PROCESS EXPLORER") ++
    moveTo 2 2 ++ say "Pick a process. Enter opens details; ? explains what the values mean." ++
    moveTo 3 2 ++
    (if state.search ≠ [] then
      styled useColor .dim
        (decimal count ++ ascii " of " ++ decimal total ++ ascii " processes match \"" ++
          state.search ++ ascii "\" | sorted by " ++ sortName state.sort)
    else
      styled useColor .dim
        (decimal total ++ ascii " readable processes | sorted by " ++ sortName state.sort)) ++
    moveTo 4 2 ++
    styled useColor .dim (ascii "[/] Search   [c] CPU   [m] Memory   [p] PID   [n] Name") ++
    moveTo 5 2 ++ printRule (term.cols - 3) ++
    moveTo (tableRow - 1) 2 ++
    out (ascii "  " ++ padRight 8 (ascii "PID") ++ ascii " " ++ padLeft 7 (ascii "CPU") ++
      ascii " " ++ padLeft 11 (ascii "MEMORY") ++ ascii " " ++ padLeft 13 (ascii "STATE") ++
      ascii " " ++ padLeft 5 (ascii "THR") ++ ascii " " ++ padRight (nameWidth term) (ascii "NAME"))

def printTableLine (selected : Nat) (line : TableLine) : List Piece :=
  moveTo line.row 2 ++
    if line.index = selected then styled useColor .reverse line.text else out line.text

def noProcesses (state : AppState) : List Piece :=
  moveTo tableRow 2 ++
    if state.search ≠ [] then
      out (ascii "No process matches \"" ++ state.search ++
        ascii "\". Press / to change or clear the search.")
    else say "No readable processes in this sample."

def aboutProcess (row : Int) (selected : ProcessRow) : List Piece :=
  moveTo (row + 2) 2 ++
    out (selected.name ++ ascii "  PID " ++ formatInt selected.pid ++ ascii "  |  CPU " ++
      formatProcessCpu selected.cpuPercent 16 ++ ascii "  |  " ++
      formatTenths (selected.rssKib.toNat / kibPerMib) ++ ascii " MiB  |  " ++
      teachingStateName selected.state ++ ascii "  |  " ++ decimal selected.threads.toNat ++
      ascii " thread" ++ if selected.threads = 1 then [] else ascii "s") ++
    moveTo (row + 3) 2 ++ out (teachingStateExplanation selected.state) ++
    moveTo (row + 4) 2 ++
    say "CPU is this process's share of the whole machine during the latest short sample."

def processesFooter (term : TerminalSize) : List Piece :=
  moveTo (footerRow term) 2 ++ printRule (term.cols - 3) ++
    moveTo (footerRow term + 1) 2 ++ printKey useColor "Up/Down" "Move" .cyan ++ say "  " ++
    printKey useColor "/" "Search" .cyan ++ say "  " ++
    printKey useColor "Enter" "Details" .green ++ say "  " ++
    printKey useColor "?" "Explain" .cyan ++ say "  " ++ printKey useColor "k" "Stop" .green ++
    say "  " ++ styled useColor .dim (ascii "[Esc] Back  [q] Quit")

def renderProcesses (rows : List ProcessRow) (total : Nat) (state : AppState)
    (term : TerminalSize) : List Piece :=
  clearScreen ++ processesHeader useColor term rows.length total state ++
    (tableLines term rows state).flatMap (printTableLine useColor state.selected) ++
    (if rows.length = 0 then noProcesses state else []) ++
    moveTo (aboutRow term) 2 ++ printRule (term.cols - 3) ++
    moveTo (aboutRow term + 1) 2 ++ styled useColor .cyan (ascii "ABOUT THIS PROCESS") ++
    (match rows[state.selected]? with
    | some selected => aboutProcess (aboutRow term) selected
    | none => []) ++
    (if state.notice ≠ [] then
      moveTo (aboutRow term + 5) 2 ++ styled useColor .yellow state.notice
    else []) ++
    processesFooter useColor term

def renderProcessSearch (state : AppState) (term : TerminalSize) : List Piece :=
  clearScreen ++
    moveTo 1 4 ++ styled useColor .cyan (ascii "SEARCH PROCESSES") ++
    moveTo 2 4 ++ say "Type part of a process name or PID. Search is case-insensitive." ++
    moveTo 3 4 ++ printRule (term.cols - 7) ++
    moveTo 6 4 ++ say "Search: " ++ styled useColor .bold (state.searchDraft ++ ascii "_") ++
    moveTo 9 4 ++ say "Examples: nginx   maria   cloud   1425" ++
    moveTo 11 4 ++ say "Leave the search empty and press Enter to show every process again." ++
    moveTo (footerRow term) 4 ++ printRule (term.cols - 7) ++
    moveTo (footerRow term + 1) 4 ++ printKey useColor "Enter" "Apply" .green ++ say "   " ++
    styled useColor .dim (ascii "[Backspace] Delete   [Esc] Cancel")

def renderProcessDetail (detail : ProcessDetail) (term : TerminalSize) : List Piece :=
  clearScreen ++
    moveTo 1 3 ++ styled useColor .bold (ascii "ABOUT") ++ say "  " ++
    styled useColor .cyan detail.row.name ++
    moveTo 2 3 ++
    styled useColor .dim
      (ascii "A closer look at one running process. Press ? when you want the Linux internals.") ++
    moveTo 3 3 ++ printRule (term.cols - 5) ++
    moveTo 5 3 ++ out (ascii "PID        " ++ formatInt detail.row.pid) ++
    moveTo 6 3 ++ out (ascii "State      " ++ teachingStateName detail.row.state) ++
    moveTo 7 3 ++
    out (ascii "Memory     " ++ formatTenths (detail.row.rssKib.toNat / kibPerMib) ++
      ascii " MiB") ++
    moveTo 8 3 ++ out (ascii "Threads    " ++ decimal detail.row.threads.toNat) ++
    moveTo 10 3 ++ printSection useColor "COMMAND" ++
    moveTo 11 3 ++ out (precision (term.cols - 5) detail.command) ++
    moveTo 14 3 ++ styled useColor .cyan (ascii "WHAT THIS TELLS YOU") ++
    moveTo 15 3 ++ out (teachingStateExplanation detail.row.state) ++
    moveTo 17 3 ++ say "Curious where PID, memory, state, and threads come from? Press " ++
    styled useColor .bold (ascii "?") ++ say "." ++
    moveTo (footerRow term) 3 ++ printRule (term.cols - 5) ++
    moveTo (footerRow term + 1) 3 ++ printKey useColor "?" "Explain" .cyan ++ say "   " ++
    printKey useColor "k" "Stop safely" .green ++ say "   " ++
    printKey useColor "K" "Force kill" .red ++ say "   " ++
    styled useColor .dim (ascii "[Esc] Back  [q] Quit")

def learningBody (row : ProcessRow) : List Piece :=
  moveTo 5 4 ++ styled useColor .cyan (ascii "THE IDEA") ++
    moveTo 6 4 ++
    out (ascii "A process is one running instance of a program. Linux currently knows this one as PID " ++
      formatInt row.pid ++ ascii ".") ++
    moveTo 7 4 ++
    say "That PID can be reused later, so RookieTop also remembers when this process started before sending signals." ++
    moveTo 10 4 ++ styled useColor .cyan (ascii "RIGHT NOW") ++
    moveTo 11 4 ++
    out (ascii "State: " ++ teachingStateName row.state ++ ascii ". " ++
      teachingStateExplanation row.state) ++
    moveTo 12 4 ++
    out (ascii "Memory: " ++ formatTenths (row.rssKib.toNat / kibPerMib) ++
      ascii " MiB in physical RAM | Threads: " ++ decimal row.threads.toNat) ++
    moveTo 15 4 ++ styled useColor .cyan (ascii "WHERE IT COMES FROM") ++
    moveTo 16 4 ++
    out (ascii "/proc/" ++ formatInt row.pid ++
      ascii "/status   memory, threads, and readable state") ++
    moveTo 17 4 ++
    out (ascii "/proc/" ++ formatInt row.pid ++
      ascii "/stat     CPU accounting, state, and process start time") ++
    moveTo 18 4 ++
    out (ascii "/proc/" ++ formatInt row.pid ++ ascii "/cmdline  command and arguments") ++
    moveTo 21 4 ++ styled useColor .cyan (ascii "TRY IT") ++
    moveTo 22 4 ++ out (ascii "Run:  cat /proc/" ++ formatInt row.pid ++ ascii "/status") ++
    moveTo 23 4 ++ say "Look for State, Threads, and VmRSS, then compare them with RookieTop."

def renderProcessLearning (detail : ProcessDetail) (term : TerminalSize) : List Piece :=
  clearScreen ++
    moveTo 1 4 ++ styled useColor .cyan (ascii "HOW LINUX SEES") ++ say "  " ++
    styled useColor .bold detail.row.name ++
    moveTo 2 4 ++
    say "This explanation uses the process that is running on your machine right now." ++
    moveTo 3 4 ++ printRule (term.cols - 7) ++
    learningBody useColor detail.row ++
    moveTo (footerRow term) 4 ++ printRule (term.cols - 7) ++
    moveTo (footerRow term + 1) 4 ++ printKey useColor "k" "Stop safely" .green ++ say "   " ++
    printKey useColor "K" "Force kill" .red ++ say "   " ++
    styled useColor .dim (ascii "[Esc] Back  [q] Quit")

def confirmBody (force : Bool) : List Piece :=
  if force then
    moveTo 5 4 ++
      say "This ends the process immediately. It does not get a chance to save state or clean up first." ++
      moveTo 7 4 ++
      styled useColor .red (ascii "Use Force Kill only when a normal stop did not work.") ++
      moveTo 10 4 ++ say "Linux signal: SIGKILL"
  else
    moveTo 5 4 ++ say "RookieTop will ask this process to exit cleanly." ++
      moveTo 7 4 ++
      say "It gets a chance to finish work, close files, and clean up before stopping." ++
      moveTo 10 4 ++ say "Linux signal: SIGTERM"

def renderConfirm (detail : ProcessDetail) (term : TerminalSize) (force : Bool) : List Piece :=
  clearScreen ++ moveTo 1 4 ++
    (if force then styled useColor .red (ascii "FORCE KILL")
    else styled useColor .green (ascii "STOP")) ++
    out (ascii "  " ++ detail.row.name ++ ascii "?") ++
    moveTo 2 4 ++ printRule (term.cols - 7) ++ confirmBody useColor force ++
    moveTo 12 4 ++
    styled useColor .dim
      (ascii "RookieTop re-checks PID + start time before sending the signal.") ++
    moveTo (footerRow term) 4 ++ printRule (term.cols - 7) ++
    moveTo (footerRow term + 1) 4 ++
    (if force then printKey useColor "y" "Force kill" .red
    else printKey useColor "y" "Stop it" .green) ++
    say "   " ++
    styled useColor .dim
      (ascii "[n/Esc] " ++ (if force then ascii "Cancel" else ascii "Keep running") ++
        ascii "  [q] Quit")

def printLiveContext (view : Overview) (concept : Nat) : List Piece :=
  out <|
    if concept = teachCpu then
      ascii "CPU is " ++ formatTenths view.cpuPercent ++ ascii "% busy right now (" ++
        cpuStatus view.cpuPercent ++ ascii ")."
    else if concept = teachMemory then
      ascii "Memory is " ++ formatTenths view.memoryPercent ++ ascii "% used, with " ++
        formatTenths (toGib view.memory.availableKib) ++ ascii " GiB still available."
    else if concept = teachLoad ∧ view.hostOk then
      ascii "Load is " ++ formatHundredths view.host.load1 ++ ascii " on " ++
        formatInt view.host.cores ++ ascii " CPUs (" ++ loadStatus view ++ ascii ")."
    else if concept = teachDisk then
      ascii "The root filesystem is " ++ formatTenths view.diskPercent ++ ascii "% used, with " ++
        formatTenths (bytesToGib view.disk.availableBytes) ++ ascii " GiB available."
    else if concept = teachNetwork ∧ view.networkOk then
      ascii "Traffic now: down " ++ formatHundredths (view.rxPerSec / bytesPerMib) ++
        ascii " MiB/s, up " ++ formatHundredths (view.txPerSec / bytesPerMib) ++ ascii " MiB/s."
    else
      ascii "RookieTop connects this concept to Linux interfaces on your running machine."

def liveNow (view : Overview) : List Piece :=
  moveTo 5 4 ++ styled useColor .bold (ascii "LIVE NOW") ++
    out (ascii "  CPU " ++ formatTenths view.cpuPercent ++ ascii "%  |  Memory " ++
      formatTenths view.memoryPercent ++ ascii "%  |  Disk " ++ formatTenths view.diskPercent ++
      ascii "%") ++
    if view.hostOk then
      out (ascii "  |  Load " ++ formatHundredths view.host.load1 ++ ascii " / " ++
        formatInt view.host.cores ++ ascii " CPUs")
    else []

def menuLine (selected i : Nat) : List Piece :=
  match teachingGet i with
  | none => []
  | some topic =>
    moveTo (8 + 2 * i) 4 ++
      if i = selected then
        styled useColor .reverse (ascii "> " ++ padRight 22 topic.title) ++
          out (ascii "  " ++ topic.summary)
      else
        out (ascii "  " ++ padRight 22 topic.title ++ ascii "  ") ++
          styled useColor .dim topic.summary

def renderLearnMenu (state : AppState) (term : TerminalSize) : List Piece :=
  clearScreen ++
    moveTo 1 4 ++ styled useColor .cyan (ascii "EXPLORE YOUR LINUX SYSTEM") ++
    moveTo 2 4 ++
    say "Pick something you are curious about. The examples come from this machine." ++
    moveTo 3 4 ++ printRule (term.cols - 7) ++
    (if state.viewOk then liveNow useColor state.view else []) ++
    (List.range teachCount).flatMap (menuLine useColor state.learnSelected) ++
    moveTo (footerRow term) 4 ++ printRule (term.cols - 7) ++
    moveTo (footerRow term + 1) 4 ++ printKey useColor "Up/Down" "Choose" .cyan ++ say "   " ++
    printKey useColor "Enter" "Explain" .green ++ say "   " ++
    styled useColor .dim (ascii "[Esc] Back  [q] Quit")

/-- A wrapped text, and the row behind it. Its length is enough passes of the loop. -/
def wrapped (term : TerminalSize) (row : Int) (text : Bytes) : List Piece × Int :=
  match printWrapped (text.length + 1) row 4 (lessonWidth term) text with
  | some (printed, row) => (printed.flatMap fun line => moveTo line.row line.col ++ out line.text, row)
  | none => ([], row)

def lessonSection (term : TerminalSize) (row : Int) (heading : String) (text : Bytes) :
    List Piece × Int :=
  let body := wrapped term (row + 2) text
  (moveTo (row + 1) 4 ++ styled useColor .cyan (ascii heading) ++ body.1, body.2)

def renderTopic (topic : TeachingTopic) (state : AppState) (term : TerminalSize) : List Piece :=
  let meaning :=
    lessonSection useColor term (if state.viewOk then 7 else 4) "WHAT IT MEANS" topic.what
  let caring := lessonSection useColor term meaning.2 "WHEN TO CARE" topic.why
  let showing := lessonSection useColor term caring.2 "HOW LINUX SHOWS IT" topic.how
  let trying := lessonSection useColor term (showing.2 + 1) "TRY IT" topic.tryIt
  clearScreen ++
    moveTo 1 4 ++ styled useColor .cyan (ascii "EXPLAIN") ++ say "  " ++
    styled useColor .bold topic.title ++
    moveTo 2 4 ++ styled useColor .dim topic.summary ++
    moveTo 3 4 ++ printRule (term.cols - 7) ++
    (if state.viewOk then
      moveTo 5 4 ++ styled useColor .cyan (ascii "ON YOUR MACHINE") ++
        moveTo 6 4 ++ printLiveContext state.view state.lesson
    else []) ++
    meaning.1 ++ caring.1 ++ showing.1 ++
    moveTo showing.2 4 ++ styled useColor .dim (ascii "Source: " ++ topic.source) ++ trying.1 ++
    moveTo (footerRow term) 4 ++ printRule (term.cols - 7) ++
    moveTo (footerRow term + 1) 4 ++ printKey useColor "n" "Next" .cyan ++ say "   " ++
    printKey useColor "b" "Previous" .cyan ++ say "   " ++
    styled useColor .dim (ascii "[Esc] Topics  [q] Quit")

def renderLesson (state : AppState) (term : TerminalSize) : List Piece :=
  match teachingGet state.lesson with
  | none => []
  | some topic => renderTopic useColor topic state term

def render (history : MetricHistory) (frame : Frame) : List Piece :=
  match frame.drawing with
  | .overview view => drawOverview r useColor history view frame.term
  | .processes rows total state => renderProcesses useColor rows total state frame.term
  | .processSearch state => renderProcessSearch useColor state frame.term
  | .detail shown => renderProcessDetail useColor shown frame.term
  | .processLearning shown => renderProcessLearning useColor shown frame.term
  | .learnMenu state => renderLearnMenu useColor state frame.term
  | .lesson state => renderLesson useColor state frame.term
  | .confirm shown force => renderConfirm useColor shown frame.term force

end RookieTop.Render
