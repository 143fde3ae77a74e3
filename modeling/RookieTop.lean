import RookieTop.CLib.Bytes
import RookieTop.CLib.Numeral
import RookieTop.CLib.Scan
import RookieTop.CLib.Stdio
import RookieTop.CLib.Stdlib
import RookieTop.Trace.Calls
import RookieTop.Trace.Episode
import RookieTop.Trace.Ledger
import RookieTop.Trace.Occupancy
import RookieTop.Sys
import RookieTop.Cpu
import RookieTop.Memory
import RookieTop.Disk
import RookieTop.Host
import RookieTop.Tables.KeyedSum
import RookieTop.Network
import RookieTop.NetworkTable
import RookieTop.Tables.BinarySearch
import RookieTop.Tables.TopList
import RookieTop.ProcDir
import RookieTop.ProcessCpu
import RookieTop.ProcessList
import RookieTop.Process
import RookieTop.CLib.Printf
import RookieTop.ProcessQuery
import RookieTop.TerminalInput
import RookieTop.DiagnosisBuild
import RookieTop.CollectOverview
import RookieTop.Explorer
import RookieTop.App
import RookieTop.RunInteractive
import RookieTop.Passes
import RookieTop.Confirm
import RookieTop.StatLine
import RookieTop.StatusText
import RookieTop.Kernel
import RookieTop.Lives
import RookieTop.Signal
import RookieTop.Selected
import RookieTop.TypeAhead
import RookieTop.Completeness
import RookieTop.Ticks
import RookieTop.CpuShare
import RookieTop.ProcessOrder
import RookieTop.Panels
import RookieTop.RenderProcesses
import RookieTop.CLib.Words
import RookieTop.StatCounters
import RookieTop.CpuJoin
import RookieTop.UnknownShare
import RookieTop.Verdict
import RookieTop.Selection
import RookieTop.CLib.Lines
import RookieTop.CLib.Written
import RookieTop.CLib.Stores
import RookieTop.Outputs
import RookieTop.NetworkLines
import RookieTop.Failures
import RookieTop.CpuLine
import RookieTop.MemoryLines
import RookieTop.StatusReaders
import RookieTop.ControlCodes
import RookieTop.OneProcess
import RookieTop.SearchTyping
import RookieTop.Text.Wrapping
import RookieTop.PrintWrapped
import RookieTop.History
import RookieTop.Handles
import RookieTop.Collectors
import RookieTop.Holdings
import RookieTop.HeldPasses
import RookieTop.Navigation
import RookieTop.Lessons
import RookieTop.Input
import RookieTop.Ending
import RookieTop.Views
import RookieTop.Thermal
import RookieTop.Notices
import RookieTop.Wording
import RookieTop.Text.Output
import RookieTop.Teaching
import RookieTop.Render
import RookieTop.Drawn
import RookieTop.Contained
import RookieTop.Main
import RookieTop.Uncolored
