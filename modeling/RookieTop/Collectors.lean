import RookieTop.Handles

/-! The collectors that go through `/proc`, with the arrays that they grow, and the
overview and the explorer's sample built on them. -/
namespace RookieTop.Collectors

open CLib Trace Sys ProcDir Tables Host Cpu Disk Memory Network ProcessCpu ProcessList CollectOverview
  Explorer Handles

open Process (ProcessInfo)

open scoped Trace.Held

variable {α : Type} (env : Env)

/-- `realloc` to twice the room. Where it fails the old block stays. -/
def grow (size : Nat) (block : Block) : Held Handle (Option Block) :=
  if sizeMax / 2 / size < block.room then pure none
  else do
    match ← malloc env (block.room * 2) with
    | none => return none
    | some grown => do
      free block
      return some grown

def store (block : Block) (items : List α) (item : α) : Held Handle (List α) := do
  useAt (some block) items.length
  return items ++ [item]

/-- The block after a push, and the items in it, unless it can not grow. -/
def push (size : Nat) (block : Block) (items : List α) (item : α) :
    Held Handle (Block × Option (List α)) :=
  if items.length = block.room then do
    match ← grow env size block with
    | none => return (block, none)
    | some grown => return (grown, some (← store grown items item))
  else do return (block, some (← store block items item))

def scanLoop (size : Nat) (read : Int → Held Handle (Option α)) (dir : Nat) :
    List Bytes → Block → List α → Held Handle (Block × Option (List α))
  | [], block, items => do
    Held.use (.dir dir) true
    return (block, some items)
  | name :: names, block, items => do
    Held.use (.dir dir) true
    match parsePid name with
    | none => scanLoop size read dir names block items
    | some pid =>
      match ← read pid with
      | none => scanLoop size read dir names block items
      | some item =>
        match ← push env size block items item with
        | (block, none) => return (block, none)
        | (block, some items) => scanLoop size read dir names block items

def scanAll (size : Nat) (read : Int → Held Handle (Option α)) (dir : Nat × Directory)
    (block : Block) : Held Handle (Block × Option (List α)) := do
  let (block, items) ← scanLoop env size read dir.1 dir.2.names block []
  return (block, if dir.2.error then none else items)

/-- A scan whose array is the caller's, or nobody's where it is empty. -/
def collect (size : Nat) (read : Int → Held Handle (Option α)) :
    Held Handle (Option (Option Block × List α)) := do
  match ← opendir env.directory with
  | none => return none
  | some dir =>
    match ← malloc env initialCapacity with
    | none => do
      let _ ← closedir dir
      return none
    | some block =>
      match ← scanAll env size read dir block with
      | (block, none) => do
        free block
        let _ ← closedir dir
        return none
      | (block, some items) => do
        if ← closedir dir then
          if items.length = 0 then do
            free block
            return some (none, items)
          else return some (some block, items)
        else do
          free block
          return none

structure Snapshot where
  record : Block
  items : Block
  counters : List ProcessCpuCounter

def processCpuSnapshotFree : Option Snapshot → Held Handle Unit
  | none => pure ()
  | some snapshot => do
    free snapshot.items
    free snapshot.record

def readCounter (pid : Int) : Held Handle (Option ProcessCpuCounter) := do
  return (← Handles.readProcessStat env pid).map fun stat => ⟨stat.pid, stat.ticks, stat.starttime⟩

def processCpuSnapshotTake : Held Handle (Option Snapshot) := do
  match ← opendir env.directory with
  | none => return none
  | some dir =>
    match ← malloc env 1 with
    | none => do
      let _ ← closedir dir
      return none
    | some record =>
      match ← malloc env initialCapacity with
      | none => do
        free record
        let _ ← closedir dir
        return none
      | some block =>
        match ← scanAll env 24 (readCounter env) dir block with
        | (block, none) => do
          processCpuSnapshotFree (some ⟨record, block, []⟩)
          let _ ← closedir dir
          return none
        | (block, some items) => do
          if ← closedir dir then do
            useFirst (some block) items.length
            return some ⟨record, block, env.qsort.sort compareCounter items⟩
          else do
            processCpuSnapshotFree (some ⟨record, block, items⟩)
            return none

def readInfo (previous : Snapshot) (systemDeltaTicks : UInt64) (pid : Int) :
    Held Handle (Option ProcessCpuInfo) := do
  match ← Handles.readProcessStat env pid with
  | none => return none
  | some current => do
    useFirst (some previous.items) previous.counters.length
    return some
      { pid := current.pid
        name := current.name
        cpuPercent := cpuShare previous.counters systemDeltaTicks pid current
        starttime := current.starttime }

def processCpuAllSince (previous : Snapshot) (systemDeltaTicks : UInt64) :
    Held Handle (Option (Option Block × List ProcessCpuInfo)) :=
  if systemDeltaTicks = 0 then pure none
  else do
    match ← collect env 88 (readInfo env previous systemDeltaTicks) with
    | none => return none
    | some (block, items) => do
      useFirst block items.length
      return some (block, env.qsort.sort compareInfoPid items)

def processCpuTopSince (previous : Snapshot) (systemDeltaTicks : UInt64) (cap : Nat) :
    Held Handle (Option (List ProcessCpuInfo × Nat)) :=
  if systemDeltaTicks = 0 ∨ cap = 0 then pure none
  else do
    match ← processCpuAllSince env previous systemDeltaTicks with
    | none => return none
    | some (block, all) => do
      useFirst block all.length
      freeAny block
      return some ((all.filter fun info => 0 < info.cpuPercent).foldl
        (insertTop ProcessCpuInfo.cpuPercent cap) [], all.length)

def processListRead : Held Handle (Option (Option Block × List ProcessRow)) :=
  collect env 104 (Handles.readRow env)

def topLoop (dir cap : Nat) :
    List Bytes → List ProcessInfo × Nat → Held Handle (List ProcessInfo × Nat)
  | [], top => do
    Held.use (.dir dir) true
    return top
  | name :: names, top => do
    Held.use (.dir dir) true
    match parsePid name with
    | none => topLoop dir cap names top
    | some pid =>
      match ← Handles.readProcess env pid with
      | none => topLoop dir cap names top
      | some process =>
        topLoop dir cap names (insertTop ProcessInfo.rssKib cap top.1 process, top.2 + 1)

def processTopMemory (cap : Nat) : Held Handle (Option (List ProcessInfo × Nat)) :=
  if cap = 0 then pure none
  else do
    match ← opendir env.directory with
    | none => return none
    | some dir =>
      let top ← topLoop env dir.1 cap dir.2.names ([], 0)
      let closed ← closedir dir
      return if dir.2.error then none else if closed then some top else none

def thermalLoop (dir : Nat) : List Bytes → ℚ × Bytes → Held Handle (ℚ × Bytes)
  | [], hottest => do
    Held.use (.dir dir) true
    return hottest
  | zone :: zones, hottest => do
    Held.use (.dir dir) true
    if isZone zone then
      match hotter hottest.1 (← Handles.readFirstLine env (.thermalTemp zone) [] thermalLineMax) with
      | none => thermalLoop dir zones hottest
      | some temperature =>
        let type ←
          Handles.readFirstLine env (.thermalType zone) (ascii "thermal") hostThermalTypeMax
        thermalLoop dir zones (temperature, type.1)
    else thermalLoop dir zones hottest

def readThermal : Held Handle (Option (ℚ × Bytes)) := do
  match ← opendir env.thermal with
  | none => return none
  | some dir =>
    let hottest ← thermalLoop env dir.1 dir.2.names (-1, [])
    let _ ← closedir dir
    return if 0 ≤ hottest.1 then some hottest else none

def hostRead : Held Handle (Option HostInfo) := do
  match ← Held.ofCalls (Calls.call env.hostname) with
  | none => return none
  | some hostname =>
    match ← Held.ofCalls (Calls.call env.uname) with
    | none => return none
    | some release =>
      let cores ← Held.ofCalls (Calls.call env.processors)
      if cores < 1 then return none
      else
        match ← Handles.scanFile env .uptime (hostParseUptime env) with
        | none => return none
        | some uptime =>
          match ← Handles.scanFile env .loadavg (hostParseLoadavg env) with
          | none => return none
          | some loads => return some (hostOf hostname release cores uptime loads (← readThermal env))

def networkAt : Held Handle (Option (NetworkSample × Timespec)) := do
  match ← Handles.networkRead env with
  | none => return none
  | some net => return (← Held.ofCalls (Calls.call env.clock)).map fun time => (net, time)

def networkSince (first : Option (NetworkSample × Timespec)) : Held Handle (Option (ℚ × ℚ)) := do
  match first with
  | none => return none
  | some (prev, start) =>
    match ← networkAt env with
    | none => return none
    | some (curr, stop) => return networkRate prev curr (elapsedSeconds start stop)

def cpuTopSince (previous : Option Snapshot) (systemDeltaTicks : UInt64) :
    Held Handle (Option (List ProcessCpuInfo × Nat)) :=
  match previous with
  | none => pure none
  | some previous => processCpuTopSince env previous systemDeltaTicks topProcessCount

/-- The second half. The snapshot is freed before the last scan, and on an error. -/
def finishOverview (host : Option HostInfo) (memory : MemorySample) (disk : DiskSample)
    (cpuPrev cpuCurr : CpuSample) (first : Option (NetworkSample × Timespec))
    (previous : Option Snapshot) : Held Handle (Option Overview) := do
  let rates ← networkSince env first
  match cpuUsage cpuPrev cpuCurr, cpuTotalDelta cpuPrev cpuCurr, memoryUsage memory,
      diskUsage disk with
  | some cpuPercent, some systemDeltaTicks, some usage, some diskUsed => do
    let cpuTop ← cpuTopSince env previous systemDeltaTicks
    processCpuSnapshotFree previous
    let memoryTop ← processTopMemory env topProcessCount
    return some (overviewOf host memory usage disk diskUsed cpuPercent rates cpuTop memoryTop)
  | _, _, _, _ => do
    processCpuSnapshotFree previous
    return none

def waitOverview (host : Option HostInfo) (memory : MemorySample) (disk : DiskSample)
    (cpuPrev : CpuSample) (first : Option (NetworkSample × Timespec)) (previous : Option Snapshot) :
    Held Handle (Option Overview) := do
  if ← Held.ofCalls (waitNs env) then
    match ← Handles.cpuRead env with
    | none => do
      processCpuSnapshotFree previous
      return none
    | some cpuCurr => finishOverview env host memory disk cpuPrev cpuCurr first previous
  else do
    processCpuSnapshotFree previous
    return none

def collectOverview : Held Handle (Option Overview) := do
  let host ← hostRead env
  match ← Handles.memoryRead env with
  | none => return none
  | some memory =>
    match ← Held.ofCalls (diskReadRoot env) with
    | none => return none
    | some disk =>
      match ← Handles.cpuRead env with
      | none => return none
      | some cpuPrev =>
        let first ← networkAt env
        let previous ← processCpuSnapshotTake env
        waitOverview env host memory disk cpuPrev first previous

/-- The snapshot, which stays allocated, and the window that it opens, if there is one. -/
def sampleWindow :
    Held Handle (Option Snapshot × Option (Snapshot × UInt64)) := do
  match ← Handles.cpuRead env with
  | none => return (none, none)
  | some cpuPrev =>
    match ← processCpuSnapshotTake env with
    | none => return (none, none)
    | some previous =>
      if ← Held.ofCalls (waitNs env) then
        match ← Handles.cpuRead env with
        | none => return (some previous, none)
        | some cpuCurr =>
          return (some previous,
            (cpuTotalDelta cpuPrev cpuCurr).map fun ticks => (previous, ticks))
      else return (some previous, none)

def sampleProcessRows : Held Handle (Option (Option Block × List ProcessRow)) := do
  let (previous, window) ← sampleWindow env
  match ← processListRead env with
  | none => do
    processCpuSnapshotFree previous
    return none
  | some (block, rows) =>
    match window with
    | none => do
      processCpuSnapshotFree previous
      return some (block, rows)
    | some (snapshot, systemDeltaTicks) =>
      match ← processCpuAllSince env snapshot systemDeltaTicks with
      | none => do
        processCpuSnapshotFree previous
        return some (block, rows)
      | some (items, infos) => do
        useFirst items infos.length
        useFirst block rows.length
        freeAny items
        processCpuSnapshotFree previous
        return some (block, rows.map (joinShare infos))

/-! Without what they hold they are the collectors of the other modules. -/

section Calls

variable {β : Type}

theorem push_calls {size : Nat} {block : Block} {items : List α} {item : α}
    {f : Block × Option (List α) → Calls β} {g : Option (Nat × List α) → Calls β}
    (hnone : ∀ block, f (block, none) = g none)
    (hsome : ∀ block items, f (block, some items) = g (some (block.room, items))) :
    ((push env size block items item).calls >>= f) =
      ProcDir.push env size block.room items item >>= g := by
  unfold push ProcDir.push grow store
  split_ifs with hfull hroom
  · simp [hnone]
  · simp only [Held.calls_bind, bind_assoc]
    refine Held.call_bind_congr fun n => ?_
    by_cases hallocates : env.allocates n
    · simp [hallocates, free, hsome]
    · simp [hallocates, hnone]
  · simp [hsome]

variable {read : Int → Held Handle (Option α)} {plain : Int → Calls (Option α)}

theorem scanLoop_calls {size dir : Nat} (hread : ∀ pid, (read pid).calls = plain pid)
    {names : List Bytes} {block : Block} {items : List α}
    {f : Block × Option (List α) → Calls β} {g : Option (List α) → Calls β}
    (h : ∀ block items, f (block, items) = g items) :
    ((scanLoop env size read dir names block items).calls >>= f) =
      ProcDir.scanLoop env size plain names block.room items >>= g := by
  induction names generalizing block items with
  | nil => simp [scanLoop, ProcDir.scanLoop, h]
  | cons name names ih =>
    unfold scanLoop ProcDir.scanLoop
    rw [Held.calls_use_bind]
    cases parsePid name with
    | none => exact ih
    | some pid =>
      simp only [Held.calls_bind, hread, bind_assoc]
      refine congrArg (plain pid >>= ·) (funext fun item => ?_)
      cases item with
      | none => exact ih
      | some item =>
        simp only [Held.calls_bind, bind_assoc]
        refine push_calls env (fun block => ?_) fun block items => ?_
        · simpa using h block none
        · exact ih

theorem scanAll_calls {size : Nat} (hread : ∀ pid, (read pid).calls = plain pid)
    {dir : Nat × Directory} {block : Block} {f : Block × Option (List α) → Calls β}
    {g : Option (List α) → Calls β}
    (h : ∀ block items, f (block, if dir.2.error then none else items) = g items) :
    ((scanAll env size read dir block).calls >>= f) =
      ProcDir.scanLoop env size plain dir.2.names block.room [] >>= g := by
  unfold scanAll
  rw [Held.calls_bind, bind_assoc]
  refine scanLoop_calls env hread fun block items => ?_
  simp [h]

theorem allocateAll_bind {f : Bool → Calls β} (n : Nat) :
    (allocateAll env (n + 1) >>= f) =
      Calls.call env.allocates >>= fun ok => if ok then allocateAll env n >>= f else f false := by
  rw [allocateAll, bind_assoc]
  refine congrArg (Calls.call env.allocates >>= ·) (funext fun ok => ?_)
  cases ok <;> simp

def closeScan (dir : Directory) (items : Option (List α)) : Option (List α) :=
  items.bind fun items => if dir.error then none else if dir.closes then some items else none

theorem scanProc_bind {buffers size : Nat} {g : Option (List α) → Calls β} :
    (scanProc env buffers size plain >>= g) =
      Calls.call env.directory >>= fun
        | none => g none
        | some dir =>
          allocateAll env buffers >>= fun ok =>
            if ok then
              ProcDir.scanLoop env size plain dir.names initialCapacity [] >>= fun items =>
                g (closeScan dir items)
            else g none := by
  unfold scanProc
  rw [bind_assoc]
  refine congrArg (Calls.call env.directory >>= ·) (funext fun dir => ?_)
  cases dir with
  | none => simp
  | some dir =>
    rw [bind_assoc]
    refine congrArg (allocateAll env buffers >>= ·) (funext fun ok => ?_)
    cases ok with
    | false => simp
    | true =>
      simp only [if_true, bind_assoc]
      refine congrArg (ProcDir.scanLoop env size plain dir.names initialCapacity [] >>= ·)
        (funext fun items => ?_)
      cases items <;> simp [closeScan]

theorem collect_calls {size : Nat} (hread : ∀ pid, (read pid).calls = plain pid)
    {f : Option (Option Block × List α) → Calls β} {g : Option (List α) → Calls β}
    (hnone : f none = g none) (hsome : ∀ block items, f (some (block, items)) = g (some items)) :
    ((collect env size read).calls >>= f) = scanProc env 1 size plain >>= g := by
  unfold collect opendir malloc
  simp only [Held.calls_bind, Held.calls_acquire, bind_assoc, scanProc_bind]
  refine Held.call_bind_congr fun n => ?_
  cases env.directory n with
  | none => simpa using hnone
  | some dir =>
    simp only [Option.map_some, Held.calls_bind, Held.calls_acquire, bind_assoc, allocateAll_bind]
    refine Held.call_bind_congr fun m => ?_
    by_cases hallocates : env.allocates m
    · simp only [hallocates, if_true, Held.calls_bind, bind_assoc, allocateAll, pure_bind]
      refine scanAll_calls env hread fun block items => ?_
      cases items with
      | none => simp [closeScan, closedir, free, hnone]
      | some items =>
        by_cases herror : dir.error = true
        · simp [closeScan, closedir, free, hnone, herror]
        · by_cases hcloses : dir.closes = true
          · by_cases hempty : items.length = 0
            · simp [closeScan, closedir, free, hsome, herror, hcloses, hempty]
            · simp [closeScan, closedir, hsome, herror, hcloses, hempty]
          · simp [closeScan, closedir, free, hnone, herror, hcloses]
    · simp [hallocates, hnone, closedir]

theorem readCounter_calls (pid : Int) :
    (readCounter env pid).calls = ProcessCpu.readCounter env pid :=
  Held.calls_bind_congr (readProcessStat_calls env pid) fun _ => rfl

theorem readInfo_calls (previous : Snapshot) (systemDeltaTicks : UInt64) (pid : Int) :
    (readInfo env previous systemDeltaTicks pid).calls =
      ProcessCpu.readInfo env previous.counters systemDeltaTicks pid := by
  refine Held.calls_bind_congr (readProcessStat_calls env pid) fun current => ?_
  cases current <;> simp

theorem processCpuSnapshotFree_calls (snapshot : Option Snapshot) :
    (processCpuSnapshotFree snapshot).calls = pure () := by
  cases snapshot <;> rfl

theorem processCpuSnapshotTake_calls {f : Option Snapshot → Calls β}
    {g : Option (List ProcessCpuCounter) → Calls β} (hnone : f none = g none)
    (hsome : ∀ snapshot, f (some snapshot) = g (some snapshot.counters)) :
    ((processCpuSnapshotTake env).calls >>= f) = ProcessCpu.processCpuSnapshotTake env >>= g := by
  unfold processCpuSnapshotTake ProcessCpu.processCpuSnapshotTake opendir malloc
  simp only [Held.calls_bind, Held.calls_acquire, bind_assoc, scanProc_bind]
  refine Held.call_bind_congr fun n => ?_
  cases env.directory n with
  | none => simpa using hnone
  | some dir =>
    simp only [Option.map_some, Held.calls_bind, Held.calls_acquire, bind_assoc, allocateAll_bind]
    refine Held.call_bind_congr fun m => ?_
    by_cases hrecord : env.allocates m
    · simp only [hrecord, if_true, Held.calls_bind, Held.calls_acquire, bind_assoc]
      refine Held.call_bind_congr fun m => ?_
      by_cases hitems : env.allocates m
      · simp only [hitems, if_true, Held.calls_bind, bind_assoc, allocateAll, pure_bind]
        refine scanAll_calls env (readCounter_calls env) fun block items => ?_
        cases items with
        | none => simp [closeScan, closedir, processCpuSnapshotFree_calls, hnone]
        | some items =>
          by_cases herror : dir.error = true
          · simp [closeScan, closedir, processCpuSnapshotFree_calls, hnone, herror]
          · by_cases hcloses : dir.closes = true
            · simp [closeScan, closedir, hsome, herror, hcloses]
            · simp [closeScan, closedir, processCpuSnapshotFree_calls, hnone, herror, hcloses]
      · simp [hitems, hnone, closedir, free]
    · simp [hrecord, hnone, closedir]

theorem processCpuAllSince_calls {previous : Snapshot} {systemDeltaTicks : UInt64}
    {f : Option (Option Block × List ProcessCpuInfo) → Calls β}
    {g : Option (List ProcessCpuInfo) → Calls β} (hnone : f none = g none)
    (hsome : ∀ block items, f (some (block, items)) = g (some items)) :
    ((processCpuAllSince env previous systemDeltaTicks).calls >>= f) =
      ProcessCpu.processCpuAllSince env previous.counters systemDeltaTicks >>= g := by
  unfold processCpuAllSince ProcessCpu.processCpuAllSince
  split_ifs with hzero
  · simpa using hnone
  · simp only [Held.calls_bind, bind_assoc, pure_bind]
    refine collect_calls env (readInfo_calls env previous systemDeltaTicks) ?_ fun block items => ?_
    · simpa using hnone
    · simp [hsome]

theorem processCpuTopSince_calls {previous : Snapshot} {systemDeltaTicks : UInt64} {cap : Nat} :
    (processCpuTopSince env previous systemDeltaTicks cap).calls =
      ProcessCpu.processCpuTopSince env previous.counters systemDeltaTicks cap := by
  unfold processCpuTopSince ProcessCpu.processCpuTopSince
  split_ifs with hnothing
  · rfl
  · rw [Held.calls_bind]
    refine processCpuAllSince_calls env ?_ fun block items => ?_
    · rfl
    · simp

theorem processListRead_calls {f : Option (Option Block × List ProcessRow) → Calls β}
    {g : Option (List ProcessRow) → Calls β} (hnone : f none = g none)
    (hsome : ∀ block items, f (some (block, items)) = g (some items)) :
    ((processListRead env).calls >>= f) = ProcessList.processListRead env >>= g :=
  collect_calls env (readRow_calls env) hnone hsome

theorem topLoop_calls (dir cap : Nat) (names : List Bytes) (top : List ProcessInfo × Nat) :
    (topLoop env dir cap names top).calls = Process.topLoop env cap names top := by
  induction names generalizing top with
  | nil => rfl
  | cons name names ih =>
    unfold topLoop Process.topLoop
    rw [Held.calls_use_bind]
    cases parsePid name with
    | none => exact ih top
    | some pid =>
      refine Held.calls_bind_congr (readProcess_calls env pid) fun process => ?_
      cases process with
      | none => exact ih top
      | some process => exact ih _

theorem processTopMemory_calls (cap : Nat) :
    (processTopMemory env cap).calls = Process.processTopMemory env cap := by
  unfold processTopMemory Process.processTopMemory opendir
  split_ifs with hzero
  · rfl
  · simp only [Held.calls_bind, Held.calls_acquire]
    refine Held.call_bind_congr fun n => ?_
    cases env.directory n with
    | none => rfl
    | some dir =>
      simp only [Option.map_some, Held.calls_bind, topLoop_calls]
      refine congrArg (Process.topLoop env cap dir.names ([], 0) >>= ·) (funext fun top => ?_)
      simp [closedir]

theorem thermalLoop_calls (dir : Nat) (zones : List Bytes) (hottest : ℚ × Bytes) :
    (thermalLoop env dir zones hottest).calls = Host.thermalLoop env zones hottest := by
  induction zones generalizing hottest with
  | nil => rfl
  | cons zone zones ih =>
    unfold thermalLoop Host.thermalLoop
    rw [Held.calls_use_bind, Held.calls_ite]
    refine if_congr Iff.rfl ?_ (ih hottest)
    refine Held.calls_bind_congr (readFirstLine_calls env _ _ _) fun line => ?_
    cases hotter hottest.1 line with
    | none => exact ih hottest
    | some temperature =>
      exact Held.calls_bind_congr (readFirstLine_calls env _ _ _) fun type => ih _

theorem readThermal_calls : (readThermal env).calls = Host.readThermal env := by
  unfold readThermal Host.readThermal opendir
  simp only [Held.calls_bind, Held.calls_acquire]
  refine Held.call_bind_congr fun n => ?_
  cases env.thermal n with
  | none => rfl
  | some dir =>
    simp only [Option.map_some, Held.calls_bind, thermalLoop_calls]
    refine congrArg (Host.thermalLoop env dir.names (-1, []) >>= ·) (funext fun hottest => ?_)
    simp [closedir]

theorem hostRead_calls : (hostRead env).calls = Host.hostRead env := by
  refine Held.calls_bind_congr rfl fun hostname => ?_
  cases hostname with
  | none => rfl
  | some hostname =>
    refine Held.calls_bind_congr rfl fun release => ?_
    cases release with
    | none => rfl
    | some release =>
      refine Held.calls_bind_congr rfl fun cores => ?_
      rw [Held.calls_ite]
      refine if_congr Iff.rfl rfl ?_
      refine Held.calls_bind_congr (scanFile_calls env _ _) fun uptime => ?_
      cases uptime with
      | none => rfl
      | some uptime =>
        refine Held.calls_bind_congr (scanFile_calls env _ _) fun loads => ?_
        cases loads with
        | none => rfl
        | some loads => exact Held.calls_bind_congr (readThermal_calls env) fun _ => rfl

theorem networkAt_calls : (networkAt env).calls = CollectOverview.networkAt env := by
  refine Held.calls_bind_congr (networkRead_calls env) fun net => ?_
  cases net <;> rfl

theorem networkSince_calls (first : Option (NetworkSample × Timespec)) :
    (networkSince env first).calls = CollectOverview.networkSince env first := by
  cases first with
  | none => rfl
  | some first =>
    refine Held.calls_bind_congr (networkAt_calls env) fun curr => ?_
    cases curr <;> rfl

theorem cpuTopSince_calls (previous : Option Snapshot) (systemDeltaTicks : UInt64) :
    (cpuTopSince env previous systemDeltaTicks).calls =
      CollectOverview.cpuTopSince env (previous.map Snapshot.counters) systemDeltaTicks := by
  cases previous with
  | none => rfl
  | some previous => exact processCpuTopSince_calls env

theorem finishOverview_calls (host : Option HostInfo) (memory : MemorySample) (disk : DiskSample)
    (cpuPrev cpuCurr : CpuSample) (first : Option (NetworkSample × Timespec))
    (previous : Option Snapshot) :
    (finishOverview env host memory disk cpuPrev cpuCurr first previous).calls =
      CollectOverview.finishOverview env host memory disk cpuPrev cpuCurr first
        (previous.map Snapshot.counters) := by
  refine Held.calls_bind_congr (networkSince_calls env first) fun rates => ?_
  cases cpuUsage cpuPrev cpuCurr with
  | none => simp [processCpuSnapshotFree_calls]
  | some cpuPercent =>
    cases cpuTotalDelta cpuPrev cpuCurr with
    | none => simp [processCpuSnapshotFree_calls]
    | some systemDeltaTicks =>
      cases memoryUsage memory with
      | none => simp [processCpuSnapshotFree_calls]
      | some usage =>
        cases diskUsage disk with
        | none => simp [processCpuSnapshotFree_calls]
        | some diskUsed =>
          refine Held.calls_bind_congr (cpuTopSince_calls env previous systemDeltaTicks) fun cpu => ?_
          rw [Held.calls_bind, processCpuSnapshotFree_calls, pure_bind]
          exact Held.calls_bind_congr (processTopMemory_calls env _) fun _ => rfl

theorem waitOverview_calls (host : Option HostInfo) (memory : MemorySample) (disk : DiskSample)
    (cpuPrev : CpuSample) (first : Option (NetworkSample × Timespec)) (previous : Option Snapshot) :
    (waitOverview env host memory disk cpuPrev first previous).calls =
      waitNs env >>= fun waited =>
        if waited then Cpu.cpuRead env >>= fun
          | none => pure none
          | some cpuCurr => CollectOverview.finishOverview env host memory disk cpuPrev cpuCurr
              first (previous.map Snapshot.counters)
        else pure none := by
  refine Held.calls_bind_congr rfl fun waited => ?_
  cases waited with
  | false => simp [processCpuSnapshotFree_calls]
  | true =>
    refine Held.calls_bind_congr (cpuRead_calls env) fun cpuCurr => ?_
    cases cpuCurr with
    | none => simp [processCpuSnapshotFree_calls]
    | some cpuCurr => exact finishOverview_calls env host memory disk cpuPrev cpuCurr first previous

theorem collectOverview_calls :
    (collectOverview env).calls = CollectOverview.collectOverview env := by
  refine Held.calls_bind_congr (hostRead_calls env) fun host => ?_
  refine Held.calls_bind_congr (memoryRead_calls env) fun memory => ?_
  cases memory with
  | none => rfl
  | some memory =>
    refine Held.calls_bind_congr rfl fun disk => ?_
    cases disk with
    | none => rfl
    | some disk =>
      refine Held.calls_bind_congr (cpuRead_calls env) fun cpuPrev => ?_
      cases cpuPrev with
      | none => rfl
      | some cpuPrev =>
        refine Held.calls_bind_congr (networkAt_calls env) fun first => ?_
        rw [Held.calls_bind]
        refine processCpuSnapshotTake_calls env ?_ fun snapshot => ?_
        · exact waitOverview_calls env host memory disk cpuPrev first none
        · exact waitOverview_calls env host memory disk cpuPrev first (some snapshot)

theorem sampleWindow_calls {f : Option Snapshot × Option (Snapshot × UInt64) → Calls β}
    {g : Option (List ProcessCpuCounter × UInt64) → Calls β}
    (h : ∀ previous window, f (previous, window) =
      g (window.map fun window => (window.1.counters, window.2))) :
    ((sampleWindow env).calls >>= f) = Explorer.sampleWindow env >>= g := by
  unfold sampleWindow Explorer.sampleWindow
  rw [Held.calls_bind, bind_assoc, bind_assoc, cpuRead_calls]
  refine congrArg (Cpu.cpuRead env >>= ·) (funext fun cpuPrev => ?_)
  cases cpuPrev with
  | none => simp [h]
  | some cpuPrev =>
    simp only [Held.calls_bind, bind_assoc]
    refine processCpuSnapshotTake_calls env ?_ fun snapshot => ?_
    · simp [h]
    · simp only [Held.calls_bind, bind_assoc, Held.calls_ofCalls]
      refine congrArg (waitNs env >>= ·) (funext fun waited => ?_)
      cases waited with
      | false => simp [h]
      | true =>
        simp only [if_true, Held.calls_bind, bind_assoc, cpuRead_calls]
        refine congrArg (Cpu.cpuRead env >>= ·) (funext fun cpuCurr => ?_)
        cases cpuCurr <;> simp [h, Function.comp_def]

theorem sampleProcessRows_calls {f : Option (Option Block × List ProcessRow) → Calls β}
    {g : Option (List ProcessRow) → Calls β} (hnone : f none = g none)
    (hsome : ∀ block rows, f (some (block, rows)) = g (some rows)) :
    ((sampleProcessRows env).calls >>= f) = Explorer.sampleProcessRows env >>= g := by
  unfold sampleProcessRows Explorer.sampleProcessRows
  simp only [Held.calls_bind, bind_assoc]
  refine sampleWindow_calls env fun previous window => ?_
  refine processListRead_calls env ?_ fun block rows => ?_
  · simp [processCpuSnapshotFree_calls, hnone]
  · cases window with
    | none => simp [processCpuSnapshotFree_calls, hsome]
    | some window =>
      simp only [Option.map_some, Held.calls_bind, bind_assoc]
      refine processCpuAllSince_calls env ?_ fun items infos => ?_
      · simp [processCpuSnapshotFree_calls, hsome]
      · simp [processCpuSnapshotFree_calls, hsome]

end Calls

end RookieTop.Collectors
