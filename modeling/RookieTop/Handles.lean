import RookieTop.Explorer
import RookieTop.Trace.Ledger

/-! The collectors with what they hold: open files, open directories and allocated
blocks, and what is closed and freed on the way out of every error. -/
namespace RookieTop.Handles

open CLib Trace Sys ProcDir Host Cpu Disk Memory Network ProcessCpu ProcessList CollectOverview Explorer

open Process (ProcessInfo)

open scoped Trace.Held

structure Block where
  room : Nat
  allocated : Nat
  deriving DecidableEq

/-- Named by the time of the call that handed it out. `NULL` is handed out by none. -/
inductive Handle where
  | file (opened : Nat)
  | dir (opened : Nat)
  | block (block : Block)
  | null
  deriving DecidableEq

def Handle.born : Handle → Nat
  | file opened => opened
  | dir opened => opened
  | block b => b.allocated
  | null => 0

def pointer : Option Block → Handle
  | none => .null
  | some block => .block block

def roomOf : Option Block → Nat
  | none => 0
  | some block => block.room

variable (env : Env)

def fopen (path : Path) : Held Handle (Option Nat) :=
  Held.acquire (fun n => if env.opens n path then some n else none) .file

def contents (path : Path) (file : Nat) : Held Handle Stream := do
  Held.use (.file file) true
  Held.ofCalls (Calls.call fun n => env.content file n path)

def fclose (file : Nat) : Held Handle Bool := do
  Held.release (.file file)
  Held.ofCalls (Calls.call env.closes)

def opendir (listing : Nat → Option Directory) : Held Handle (Option (Nat × Directory)) :=
  Held.acquire (fun n => (listing n).map fun listing => (n, listing)) fun dir => .dir dir.1

def closedir (dir : Nat × Directory) : Held Handle Bool := do
  Held.release (.dir dir.1)
  return dir.2.closes

def malloc (room : Nat) : Held Handle (Option Block) :=
  Held.acquire (fun n => if env.allocates n then some ⟨room, n⟩ else none) .block

def free (block : Block) : Held Handle Unit := Held.release (.block block)

def freeAny : Option Block → Held Handle Unit
  | none => pure ()
  | some block => free block

def useAt (block : Option Block) (i : Nat) : Held Handle Unit :=
  Held.use (pointer block) (i < roomOf block)

def useFirst (block : Option Block) (count : Nat) : Held Handle Unit :=
  if count = 0 then pure () else useAt block (count - 1)

@[simp] theorem useAt_calls (block : Option Block) (i : Nat) : (useAt block i).calls = pure () :=
  rfl

@[simp] theorem useFirst_calls (block : Option Block) (count : Nat) :
    (useFirst block count).calls = pure () := by
  unfold useFirst
  split <;> rfl

@[simp] theorem freeAny_calls (block : Option Block) : (freeAny block).calls = pure () := by
  cases block <;> rfl

def readFile (path : Path) : Held Handle (Option (Stream × Bool)) := do
  match ← fopen env path with
  | none => return none
  | some file =>
    let stream ← contents env path file
    let closed ← fclose env file
    return some (stream, closed)

def readLine (path : Path) (size : Nat) : Held Handle (Option Bytes) := do
  match ← readFile env path with
  | none => return none
  | some (stream, closed) =>
    match fgets size stream with
    | none => return none
    | some (line, _) => return if closed then some (cstr line) else none

def scanFile {α : Type} (path : Path) (parse : Bytes → Option α) : Held Handle (Option α) := do
  match ← readFile env path with
  | none => return none
  | some (stream, closed) => return if closed then parse stream.bytes else none

def readFirstLine (path : Path) (old : Bytes) (size : Nat) : Held Handle (Bytes × Bool) := do
  match ← readFile env path with
  | none => return (old, false)
  | some (stream, closed) => return firstLine size old stream closed

def cpuRead : Held Handle (Option CpuSample) := do
  match ← readLine env .stat cpuLineMax with
  | none => return none
  | some line => return cpuParseLine line

def readProcessStat (pid : Int) : Held Handle (Option ProcessCpuStat) := do
  match ← readLine env (.pidStat pid) procStatLineMax with
  | none => return none
  | some line => return processCpuParseStat line

def readStarttime (pid : Int) : Held Handle (Option UInt64) := do
  match ← readLine env (.pidStat pid) lineMaxLocal with
  | none => return none
  | some line => return (processCpuParseStat line).map ProcessCpuStat.starttime

def memoryRead : Held Handle (Option MemorySample) := do
  match ← readFile env .meminfo with
  | none => return none
  | some (stream, closed) => return if closed then memoryParse stream else none

def readProcess (pid : Int) : Held Handle (Option ProcessInfo) := do
  match ← readFile env (.pidStatus pid) with
  | none => return none
  | some (stream, closed) =>
    return if closed then Process.processParseStatus stream pid else none

def readCmdline (pid : Int) (cap : Nat) : Held Handle (Option Bytes) := do
  match ← readFile env (.pidCmdline pid) with
  | none => return none
  | some (stream, closed) => return if closed then parseCmdline cap stream else none

/-- A sum that does not fit leaves the loop with the file still open. -/
def networkRead : Held Handle (Option NetworkSample) := do
  match ← fopen env .netDev with
  | none => return none
  | some file =>
    let stream ← contents env .netDev file
    match networkLoop ((fgetsAll netLineMax stream).map cstr) ⟨0, 0⟩ with
    | none => do
      let _ ← fclose env file
      return none
    | some sample => do
      Held.use (.file file) true
      let closed ← fclose env file
      return if stream.error ∨ !closed then none else some sample

/-- A malformed line leaves the loop with the file still open. -/
def readRow (pid : Int) : Held Handle (Option ProcessRow) := do
  match ← fopen env (.pidStatus pid) with
  | none => return none
  | some file =>
    let stream ← contents env (.pidStatus pid) file
    match ((fgetsAll lineMaxLocal stream).map cstr).foldlM ProcessList.statusStep
        (emptyRow pid, false) with
    | none => do
      let _ ← fclose env file
      return none
    | some (row, foundName) => do
      Held.use (.file file) true
      let closed ← fclose env file
      if stream.error ∨ !closed ∨ !foundName then return none
      else return (← readStarttime env pid).map fun starttime => { row with starttime := starttime }

def processDetailRead (pid : Int) : Held Handle (Option ProcessDetail) :=
  if pid ≤ 0 then pure none
  else do
    match ← readRow env pid with
    | none => return none
    | some row =>
      let command ← readCmdline env pid processCmdlineMax
      return some ⟨row, commandOr row command⟩

def processSendSignal (pid : Int) (starttime : UInt64) (signal : Int) :
    Held Handle (SignalResult × Option KillCall) :=
  if pid ≤ 0 ∨ starttime = 0 ∨ (signal ≠ sigterm ∧ signal ≠ sigkill) then pure (.error, none)
  else do
    match ← readStarttime env pid with
    | none => return (.gone, none)
    | some current =>
      if current ≠ starttime then return (.reused, none)
      else
        let (time, answer) ← Held.ofCalls (Calls.call fun n => (n, env.kills n pid signal))
        return (killResult answer, some ⟨time, pid, signal, current⟩)

/-! Without what they hold they are the collectors of the other modules. -/

theorem readFile_calls (path : Path) : (readFile env path).calls = Sys.readFile env path := by
  refine Held.calls_bind_congr rfl fun opened => ?_
  cases opened <;> rfl

theorem readLine_calls (path : Path) (size : Nat) :
    (readLine env path size).calls = Sys.readLine env path size := by
  refine Held.calls_bind_congr (readFile_calls env path) fun read => ?_
  cases read with
  | none => rfl
  | some read =>
    dsimp only
    cases fgets size read.1 <;> rfl

theorem scanFile_calls {α : Type} (path : Path) (parse : Bytes → Option α) :
    (scanFile env path parse).calls = Host.scanFile env path parse := by
  refine Held.calls_bind_congr (readFile_calls env path) fun read => ?_
  cases read <;> rfl

theorem readFirstLine_calls (path : Path) (old : Bytes) (size : Nat) :
    (readFirstLine env path old size).calls = Host.readFirstLine env path old size := by
  refine Held.calls_bind_congr (readFile_calls env path) fun read => ?_
  cases read <;> rfl

theorem cpuRead_calls : (cpuRead env).calls = Cpu.cpuRead env := by
  refine Held.calls_bind_congr (readLine_calls env _ _) fun line => ?_
  cases line <;> rfl

theorem readProcessStat_calls (pid : Int) :
    (readProcessStat env pid).calls = ProcessCpu.readProcessStat env pid := by
  refine Held.calls_bind_congr (readLine_calls env _ _) fun line => ?_
  cases line <;> rfl

theorem readStarttime_calls (pid : Int) :
    (readStarttime env pid).calls = ProcessList.readStarttime env pid := by
  refine Held.calls_bind_congr (readLine_calls env _ _) fun line => ?_
  cases line <;> rfl

theorem memoryRead_calls : (memoryRead env).calls = Memory.memoryRead env := by
  refine Held.calls_bind_congr (readFile_calls env _) fun read => ?_
  cases read <;> rfl

theorem readProcess_calls (pid : Int) : (readProcess env pid).calls = Process.readProcess env pid := by
  refine Held.calls_bind_congr (readFile_calls env _) fun read => ?_
  cases read <;> rfl

theorem readCmdline_calls (pid : Int) (cap : Nat) :
    (readCmdline env pid cap).calls = ProcessList.readCmdline env pid cap := by
  refine Held.calls_bind_congr (readFile_calls env _) fun read => ?_
  cases read <;> rfl

theorem networkRead_calls : (networkRead env).calls = Network.networkRead env := by
  unfold Network.networkRead Sys.readFile
  rw [bind_assoc]
  refine Held.calls_bind_congr rfl fun opened => ?_
  cases opened with
  | none => rfl
  | some file =>
    simp only [bind_assoc, pure_bind]
    refine Held.calls_bind_congr rfl fun stream => ?_
    unfold networkParse
    cases networkLoop ((fgetsAll netLineMax stream).map cstr) ⟨0, 0⟩ with
    | none =>
      refine Held.calls_bind_congr rfl fun closed => ?_
      cases closed <;> rfl
    | some sample =>
      dsimp only
      rw [Held.calls_use_bind]
      refine Held.calls_bind_congr rfl fun closed => ?_
      cases closed <;> cases stream.error <;> rfl

theorem readRow_calls (pid : Int) : (readRow env pid).calls = ProcessList.readRow env pid := by
  unfold ProcessList.readRow Sys.readFile
  rw [bind_assoc]
  refine Held.calls_bind_congr rfl fun opened => ?_
  cases opened with
  | none => rfl
  | some file =>
    simp only [bind_assoc, pure_bind]
    refine Held.calls_bind_congr rfl fun stream => ?_
    unfold parseStatus
    cases ((fgetsAll lineMaxLocal stream).map cstr).foldlM ProcessList.statusStep
        (emptyRow pid, false) with
    | none => rfl
    | some found =>
      dsimp only
      rw [Held.calls_use_bind]
      refine Held.calls_bind_congr rfl fun closed => ?_
      by_cases hbad : stream.error = true ∨ (!found.2) = true
      · have hbad' : stream.error = true ∨ (!closed) = true ∨ (!found.2) = true := by tauto
        rw [if_pos hbad, if_pos hbad']
        rfl
      · rw [if_neg hbad]
        cases closed with
        | false =>
          have hbad' : stream.error = true ∨ (!false) = true ∨ (!found.2) = true :=
            Or.inr (Or.inl rfl)
          rw [if_pos hbad']
          rfl
        | true =>
          have hgood : ¬ (stream.error = true ∨ (!true) = true ∨ (!found.2) = true) := by
            simpa using hbad
          rw [if_neg hgood]
          exact Held.calls_bind_congr (readStarttime_calls env pid) fun _ => rfl

theorem processDetailRead_calls (pid : Int) :
    (processDetailRead env pid).calls = ProcessList.processDetailRead env pid := by
  unfold processDetailRead ProcessList.processDetailRead
  rw [Held.calls_ite]
  refine if_congr Iff.rfl rfl (Held.calls_bind_congr (readRow_calls env pid) fun row => ?_)
  cases row with
  | none => rfl
  | some row => exact Held.calls_bind_congr (readCmdline_calls env pid _) fun _ => rfl

theorem processSendSignal_calls (pid : Int) (starttime : UInt64) (signal : Int) :
    (processSendSignal env pid starttime signal).calls =
      ProcessList.processSendSignal env pid starttime signal := by
  unfold processSendSignal ProcessList.processSendSignal
  rw [Held.calls_ite]
  refine if_congr Iff.rfl rfl (Held.calls_bind_congr (readStarttime_calls env pid) fun current => ?_)
  cases current with
  | none => rfl
  | some current =>
    dsimp only
    rw [Held.calls_ite]
    rfl

/-! What each of them holds. -/

theorem fopen_triple (path : Path) (pre : Finset Handle) :
    Triple Handle.born pre (fopen env path)
      (Acquired (fun n => if env.opens n path then some n else none) .file pre) := by
  refine triple_acquire fun n file h => ?_
  split_ifs at h
  exact (Option.some.inj h).symm

theorem opendir_triple (listing : Nat → Option Directory) (pre : Finset Handle) :
    Triple Handle.born pre (opendir listing)
      (Acquired (fun n => (listing n).map fun listing => (n, listing))
        (fun dir => .dir dir.1) pre) := by
  refine triple_acquire fun n dir h => ?_
  obtain ⟨listing, -, rfl⟩ := Option.map_eq_some_iff.mp h
  rfl

theorem malloc_triple (room : Nat) (pre : Finset Handle) :
    Triple Handle.born pre (malloc env room)
      (Acquired (fun n => if env.allocates n then some ⟨room, n⟩ else none) .block pre) := by
  refine triple_acquire fun n block h => ?_
  split_ifs at h
  rw [← Option.some.inj h]
  rfl

variable {env} {pre : Finset Handle}

theorem contents_triple {path : Path} {file : Nat} (h : .file file ∈ pre) :
    Triple Handle.born pre (contents env path file) fun _ owned => owned = pre := by
  refine triple_bind (triple_use h) ?_
  rintro _ _ rfl
  exact triple_ofCalls fun _ => rfl

theorem fclose_triple {file : Nat} (h : .file file ∈ pre) :
    Triple Handle.born pre (fclose env file) fun _ owned => owned = pre.erase (.file file) := by
  refine triple_bind (triple_release h) ?_
  rintro _ _ rfl
  exact triple_ofCalls fun _ => rfl

theorem closedir_triple {dir : Nat × Directory} (h : .dir dir.1 ∈ pre) :
    Triple Handle.born pre (closedir dir) fun _ owned => owned = pre.erase (.dir dir.1) := by
  refine triple_bind (triple_release h) ?_
  rintro _ _ rfl
  exact triple_pure rfl

theorem useAt_triple {block : Option Block} {i : Nat} (h : ∀ b, block = some b → .block b ∈ pre)
    (hi : i < roomOf block) :
    Triple Handle.born pre (useAt block i) fun _ owned => owned = pre := by
  cases block with
  | none => exact absurd hi (Nat.not_lt_zero i)
  | some b =>
    unfold useAt
    rw [decide_eq_true hi]
    exact triple_use (h b rfl)

theorem useFirst_triple {block : Option Block} {count : Nat} (h : ∀ b, block = some b → .block b ∈ pre)
    (hcount : count ≤ roomOf block) :
    Triple Handle.born pre (useFirst block count) fun _ owned => owned = pre :=
  triple_ite (fun _ => triple_pure rfl) fun _ => useAt_triple h (by omega)

variable (env)

theorem readFile_balanced (path : Path) : Balanced Handle.born (readFile env path) := by
  refine triple_bind (fopen_triple env path ∅) ?_
  rintro _ _ (_ | ⟨_, file, -, hnew⟩)
  · exact balanced_pure _
  · have hfile := Finset.mem_insert_self (Handle.file file) ∅
    refine triple_bind (contents_triple hfile) ?_
    rintro stream _ rfl
    refine triple_bind (fclose_triple hfile) ?_
    rintro closed _ rfl
    exact triple_pure (Finset.erase_insert hnew)

theorem readLine_balanced (path : Path) (size : Nat) :
    Balanced Handle.born (readLine env path size) := by
  refine (readFile_balanced env path).bind fun read => ?_
  cases read with
  | none => exact balanced_pure _
  | some read =>
    dsimp only
    cases fgets size read.1 <;> exact balanced_pure _

theorem scanFile_balanced {α : Type} (path : Path) (parse : Bytes → Option α) :
    Balanced Handle.born (scanFile env path parse) :=
  (readFile_balanced env path).bind fun read => by cases read <;> exact balanced_pure _

theorem readFirstLine_balanced (path : Path) (old : Bytes) (size : Nat) :
    Balanced Handle.born (readFirstLine env path old size) :=
  (readFile_balanced env path).bind fun read => by cases read <;> exact balanced_pure _

theorem cpuRead_balanced : Balanced Handle.born (cpuRead env) :=
  (readLine_balanced env _ _).bind fun line => by cases line <;> exact balanced_pure _

theorem readProcessStat_balanced (pid : Int) : Balanced Handle.born (readProcessStat env pid) :=
  (readLine_balanced env _ _).bind fun line => by cases line <;> exact balanced_pure _

theorem readStarttime_balanced (pid : Int) : Balanced Handle.born (readStarttime env pid) :=
  (readLine_balanced env _ _).bind fun line => by cases line <;> exact balanced_pure _

theorem memoryRead_balanced : Balanced Handle.born (memoryRead env) :=
  (readFile_balanced env _).bind fun read => by cases read <;> exact balanced_pure _

theorem readProcess_balanced (pid : Int) : Balanced Handle.born (readProcess env pid) :=
  (readFile_balanced env _).bind fun read => by cases read <;> exact balanced_pure _

theorem readCmdline_balanced (pid : Int) (cap : Nat) :
    Balanced Handle.born (readCmdline env pid cap) :=
  (readFile_balanced env _).bind fun read => by cases read <;> exact balanced_pure _

theorem networkRead_balanced : Balanced Handle.born (networkRead env) := by
  refine triple_bind (fopen_triple env .netDev ∅) ?_
  rintro _ _ (_ | ⟨_, file, -, hnew⟩)
  · exact balanced_pure _
  · have hfile := Finset.mem_insert_self (Handle.file file) ∅
    refine triple_bind (contents_triple hfile) ?_
    rintro stream _ rfl
    cases networkLoop ((fgetsAll netLineMax stream).map cstr) ⟨0, 0⟩ with
    | none =>
      refine triple_bind (fclose_triple hfile) ?_
      rintro closed _ rfl
      exact triple_pure (Finset.erase_insert hnew)
    | some sample =>
      refine triple_bind (triple_use hfile) ?_
      rintro _ _ rfl
      refine triple_bind (fclose_triple hfile) ?_
      rintro closed _ rfl
      exact triple_pure (Finset.erase_insert hnew)

theorem readRow_balanced (pid : Int) : Balanced Handle.born (readRow env pid) := by
  refine triple_bind (fopen_triple env (.pidStatus pid) ∅) ?_
  rintro _ _ (_ | ⟨_, file, -, hnew⟩)
  · exact balanced_pure _
  · have hfile := Finset.mem_insert_self (Handle.file file) ∅
    refine triple_bind (contents_triple hfile) ?_
    rintro stream _ rfl
    cases ((fgetsAll lineMaxLocal stream).map cstr).foldlM ProcessList.statusStep
        (emptyRow pid, false) with
    | none =>
      refine triple_bind (fclose_triple hfile) ?_
      rintro closed _ rfl
      exact triple_pure (Finset.erase_insert hnew)
    | some found =>
      refine triple_bind (triple_use hfile) ?_
      rintro _ _ rfl
      refine triple_bind (fclose_triple hfile) ?_
      rintro closed _ rfl
      rw [Finset.erase_insert hnew]
      exact (balanced_pure _).ite ((readStarttime_balanced env pid).bind fun _ => balanced_pure _)

theorem processDetailRead_balanced (pid : Int) :
    Balanced Handle.born (processDetailRead env pid) := by
  refine (balanced_pure _).ite ((readRow_balanced env pid).bind fun row => ?_)
  cases row with
  | none => exact balanced_pure _
  | some row => exact (readCmdline_balanced env pid _).bind fun _ => balanced_pure _

theorem processSendSignal_balanced (pid : Int) (starttime : UInt64) (signal : Int) :
    Balanced Handle.born (processSendSignal env pid starttime signal) := by
  refine (balanced_pure _).ite ((readStarttime_balanced env pid).bind fun current => ?_)
  cases current with
  | none => exact balanced_pure _
  | some current =>
    refine (balanced_pure _).ite (Balanced.bind ?_ fun _ => balanced_pure _)
    exact triple_ofCalls fun _ => rfl

end RookieTop.Handles
