import RookieTop.App

/-! The lessons, and what the program says of the states of a process. -/
namespace RookieTop.Teaching

open CLib App

def teachNetwork : Nat := 8

structure TeachingTopic where
  title : Bytes
  summary : Bytes
  what : Bytes
  why : Bytes
  how : Bytes
  tryIt : Bytes
  source : Bytes

def topicCpu : TeachingTopic where
  title := ascii "CPU usage"
  summary := ascii "How busy your processors are right now."
  what := ascii "CPU usage shows how busy your processors were during a short slice of time."
  why := ascii "Brief spikes are normal. It becomes interesting when CPU stays busy long enough that work starts waiting or the machine feels slow."
  how := ascii "Linux does not store a ready-made value such as 'CPU = 42%'. It keeps cumulative CPU-time counters, and RookieTop compares two samples to calculate the percentage."
  tryIt := ascii "Run `yes > /dev/null` in another terminal. Watch CPU rise, then stop the command with Ctrl+C."
  source := ascii "/proc/stat"

def topicMemory : TeachingTopic where
  title := ascii "Linux memory"
  summary := ascii "Why a lot of used RAM is not automatically bad."
  what := ascii "RAM keeps programs and useful data close to the CPU so Linux can reach them quickly."
  why := ascii "Linux also uses spare RAM as cache. That is useful, not wasted. The more important question is how much memory is still readily available when programs need it."
  how := ascii "RookieTop reads MemAvailable instead of treating MemFree as all usable memory. This keeps reclaimable cache from looking like a memory problem."
  tryIt := ascii "Run `grep -E 'MemTotal|MemAvailable|MemFree|Cached' /proc/meminfo` and compare the values with RookieTop."
  source := ascii "/proc/meminfo"

def topicLoad : TeachingTopic where
  title := ascii "Load average"
  summary := ascii "How much work is ready or waiting, not another CPU percent."
  what := ascii "Load average is a clue about how much work is ready to run or stuck waiting in certain kernel states over time."
  why := ascii "The same load number means different things on different machines. A load of 2 is easy for many CPUs but can be significant on a 2-CPU VM."
  how := ascii "RookieTop reads Linux load values and compares the one-minute value with your number of online CPUs instead of converting load into a fake percentage."
  tryIt := ascii "Run `cat /proc/loadavg` and `nproc`, then compare both with the values shown by RookieTop."
  source := ascii "/proc/loadavg + sysconf(_SC_NPROCESSORS_ONLN)"

def topicProcess : TeachingTopic where
  title := ascii "Processes"
  summary := ascii "The running programs and background work behind system activity."
  what := ascii "A process is one running instance of a program. Linux tracks its identity, memory, state, threads, and other resources separately."
  why := ascii "When CPU or memory looks unusual, processes help answer the next question: which running program is actually contributing to it?"
  how := ascii "Linux creates a directory under /proc for each process. RookieTop reads the few fields it needs directly instead of launching `ps` behind the scenes."
  tryIt := ascii "Run `sleep 300 &`, note the PID printed by your shell, then find that same process in RookieTop."
  source := ascii "/proc/<pid>/status + /proc/<pid>/stat + /proc/<pid>/cmdline"

def topicPid : TeachingTopic where
  title := ascii "PID"
  summary := ascii "The number Linux is using for one running process right now."
  what := ascii "PID means Process ID. It is the number Linux uses to refer to a running process at a particular moment."
  why := ascii "A PID is not permanent. Linux can reuse the same number after a process exits, so safe process actions need more than the number alone."
  how := ascii "Before RookieTop sends a signal, it checks both PID and process start time. If that identity changed, RookieTop refuses the action."
  tryIt := ascii "Run `echo $$` to see your shell's PID, then inspect `/proc/$$/status`."
  source := ascii "/proc/<pid>/stat field 22 (starttime)"

def topicProcessState : TeachingTopic where
  title := ascii "Process state"
  summary := ascii "Why Sleeping is normal for most background processes."
  what := ascii "Linux gives each process a short state such as running, sleeping, waiting on I/O, stopped, or zombie."
  why := ascii "Most healthy services spend a lot of time sleeping because they have nothing to do until input, a timer, network traffic, or another event arrives."
  how := ascii "RookieTop reads Linux's state code from procfs and turns common codes into plain-language labels."
  tryIt := ascii "Watch a quiet service and a busy command such as `yes`. Their states can change as their work changes."
  source := ascii "/proc/<pid>/stat + /proc/<pid>/status"

def topicSignals : TeachingTopic where
  title := ascii "Stopping a process"
  summary := ascii "The difference between asking a process to exit and killing it immediately."
  what := ascii "Linux signals are small messages sent to processes. SIGTERM asks a process to exit; SIGKILL tells the kernel to end it immediately."
  why := ascii "A normal stop gives software a chance to finish work and clean up. A force kill skips that chance, so it should be a fallback rather than the first move."
  how := ascii "RookieTop calls kill(2) directly. `k` sends SIGTERM after confirmation. Uppercase `K` is a separate, more dangerous SIGKILL action."
  tryIt := ascii "Start `sleep 300`, find it in Process Explorer, and use Safe Stop. SIGTERM should be enough."
  source := ascii "kill(2), SIGTERM, SIGKILL"

def topicDisk : TeachingTopic where
  title := ascii "Filesystem space"
  summary := ascii "How much room remains on the root filesystem."
  what := ascii "Filesystem usage shows how much storage is occupied and how much room remains for new files."
  why := ascii "Running out of root space can cause surprisingly unrelated failures: logs stop writing, updates fail, databases cannot grow, and applications cannot save files."
  how := ascii "RookieTop asks the operating system for root-filesystem capacity directly instead of running and parsing `df`."
  tryIt := ascii "Run `df -h /` and compare the root filesystem values with RookieTop."
  source := ascii "statvfs(\"/\")"

def topicNetwork : TeachingTopic where
  title := ascii "Network throughput"
  summary := ascii "How quickly data is entering and leaving this machine."
  what := ascii "Network throughput shows the current receive and transmit rate for traffic RookieTop can observe on the machine."
  why := ascii "A download, backup, package update, or busy service can explain network activity even when CPU use is modest."
  how := ascii "Linux keeps cumulative receive and transmit byte counters. RookieTop compares two samples and divides the byte change by elapsed time."
  tryIt := ascii "Download a normal file or run a package update in another terminal and watch the receive rate change."
  source := ascii "/proc/net/dev + CLOCK_MONOTONIC"

def topics : List TeachingTopic :=
  [topicCpu, topicMemory, topicLoad, topicProcess, topicPid,
    topicProcessState, topicSignals, topicDisk, topicNetwork]

/-- No topic where the source returns a null pointer. -/
def teachingGet (concept : Nat) : Option TeachingTopic := topics[concept]?

def teachingStateExplanation (state : UInt8) : Bytes :=
  if state = 82 then ascii "Ready to run or using CPU right now."
  else if state = 83 then
    ascii "Waiting for work or an event. This is normal for many background processes."
  else if state = 68 then ascii "Waiting on kernel or I/O work that cannot be interrupted yet."
  else if state = 84 ∨ state = 116 then
    ascii "Paused or being traced, so normal work is not running right now."
  else if state = 90 then
    ascii "Already exited, but its parent has not collected the exit result yet."
  else if state = 73 then ascii "An idle kernel task with no work to run right now."
  else ascii "Linux reports a state RookieTop does not explain yet."

end RookieTop.Teaching
