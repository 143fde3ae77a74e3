import RookieTop.CLib.Stores
import RookieTop.CLib.Written
import RookieTop.Cpu
import RookieTop.Memory
import RookieTop.Network
import RookieTop.Process
import RookieTop.ProcessCpu

/-! The parsers with the memory that they are given: what each of them has stored there
when it returns, and when it returns -1. -/
namespace RookieTop.Outputs

open CLib Trace Sys ProcDir Memory Process ProcessCpu

open Cpu hiding field

open Network hiding field

open Stores (function inside own out load store fail)

def assigned (fields : List Scanned) (i : Nat) (old : UInt64) : UInt64 :=
  match fields[i]? with
  | some (.u64 v) => v
  | _ => old

def scanSample (line : Bytes) : Stores CpuSample Nat := do
  let fields := sscanf cpuFormat line
  store fun s =>
    { user := assigned fields 0 s.user
      nice := assigned fields 1 s.nice
      system := assigned fields 2 s.system
      idle := assigned fields 3 s.idle
      iowait := assigned fields 4 s.iowait
      irq := assigned fields 5 s.irq
      softirq := assigned fields 6 s.softirq
      steal := assigned fields 7 s.steal }
  return fields.length

def cpuParseLineInto (line : Bytes) : Stores CpuSample Unit :=
  function ⟨0, 0, 0, 0, 0, 0, 0, 0⟩ do
    let fields ← own (scanSample line)
    if fields < 4 then fail
    else do
      let sample ← own load
      out (store fun _ => sample)

structure MemoryFrame where
  sample : MemorySample
  found : Nat

/-- 1 and 0 are `true` and `false`. -/
def readKibInto (line name : Bytes) : Stores UInt64 Bool :=
  if startsWith line (name ++ ascii ":") then
    match sscanf Memory.kibFormat (line.drop (name.length + 1)) with
    | [.u64 value, .word unit] =>
      if unit = ascii "kB" then do
        store fun _ => value
        return true
      else fail
    | _ => fail
  else return false

namespace MemoryFrame

def totalKib (x : Stores UInt64 Bool) : Stores MemoryFrame Bool :=
  x.inside (fun f => f.sample.totalKib) fun v f => { f with sample.totalKib := v }

def availableKib (x : Stores UInt64 Bool) : Stores MemoryFrame Bool :=
  x.inside (fun f => f.sample.availableKib) fun v f => { f with sample.availableKib := v }

def swapTotalKib (x : Stores UInt64 Bool) : Stores MemoryFrame Bool :=
  x.inside (fun f => f.sample.swapTotalKib) fun v f => { f with sample.swapTotalKib := v }

def swapFreeKib (x : Stores UInt64 Bool) : Stores MemoryFrame Bool :=
  x.inside (fun f => f.sample.swapFreeKib) fun v f => { f with sample.swapFreeKib := v }

def mark (bit : Nat) : Stores MemoryFrame Unit :=
  store fun f => { f with found := f.found ||| bit }

end MemoryFrame

def memoryLoopInto : List Bytes → Stores MemoryFrame Bool
  | [] => return true
  | line :: lines => do
    if ← MemoryFrame.totalKib (readKibInto line (ascii "MemTotal")) then
      MemoryFrame.mark foundTotal
      memoryLoopInto lines
    else if ← MemoryFrame.availableKib (readKibInto line (ascii "MemAvailable")) then
      MemoryFrame.mark foundAvailable
      memoryLoopInto lines
    else if ← MemoryFrame.swapTotalKib (readKibInto line (ascii "SwapTotal")) then
      MemoryFrame.mark foundSwapTotal
      memoryLoopInto lines
    else
      if ← MemoryFrame.swapFreeKib (readKibInto line (ascii "SwapFree")) then
        MemoryFrame.mark foundSwapFree
      let frame ← load
      if frame.found = foundAll then return false else memoryLoopInto lines

def memoryParseInto (stream : Stream) : Stores MemorySample Unit :=
  function (⟨⟨0, 0, 0, 0⟩, 0⟩ : MemoryFrame) do
    let atEnd ← own (memoryLoopInto ((fgetsAll meminfoLineMax stream).map cstr))
    let ⟨sample, found⟩ ← own load
    if (atEnd ∧ stream.error) ∨ found ≠ foundAll ∨ sample.totalKib = 0 ∨
        sample.totalKib < sample.availableKib ∨ sample.swapTotalKib < sample.swapFreeKib then fail
    else out (store fun _ => sample)

def parseNameInto (line : Bytes) (cap : Nat) : Stores Bytes Bool :=
  if startsWith line Process.keyName then
    let start := (line.drop 5).dropWhile isblank
    let name := (start.take (strcspn start [13, 10])).rdropWhile isspace
    if name.length = 0 ∨ cap ≤ name.length then fail
    else do
      store fun _ => name
      return true
  else return false

def parseRssInto (line : Bytes) : Stores UInt64 Bool :=
  if startsWith line Process.keyVmRss then
    match sscanf rssFormat (line.drop 6) with
    | [.u64 value, .word unit] =>
      if unit = Process.unitKb then do
        store fun _ => value
        return true
      else fail
    | _ => fail
  else return false

structure StatusFrame where
  process : ProcessInfo
  foundName : Bool

def statusLoopInto : List Bytes → Stores StatusFrame Unit
  | [] => return ()
  | line :: lines => do
    let name (x : Stores Bytes Bool) : Stores StatusFrame Bool :=
      x.inside (fun f => f.process.name) fun v f => { f with process.name := v }
    let rss (x : Stores UInt64 Bool) : Stores StatusFrame Bool :=
      x.inside (fun f => f.process.rssKib) fun v f => { f with process.rssKib := v }
    if ← name (parseNameInto line processNameMax) then
      store fun f => { f with foundName := true }
      statusLoopInto lines
    else
      let _ ← rss (parseRssInto line)
      statusLoopInto lines

def processParseStatusInto (stream : Stream) (pid : Int) : Stores ProcessInfo Unit :=
  if pid ≤ 0 then fail
  else
    function (⟨⟨pid, [], 0⟩, false⟩ : StatusFrame) do
      own (statusLoopInto ((fgetsAll statusLineMax stream).map cstr))
      let ⟨process, foundName⟩ ← own load
      if stream.error ∨ !foundName then fail else out (store fun _ => process)

def parseUintTokenInto (token : Bytes) : Stores UInt64 Unit :=
  if token.length = 0 ∨ 32 ≤ token.length then fail
  else
    let c := strtoull token
    if c.range ∨ c.rest ≠ [] then fail else store fun _ => c.value

structure StatFrame where
  stat : ProcessCpuStat
  utime : UInt64
  stime : UInt64
  foundUtime : Bool
  foundStime : Bool
  foundStarttime : Bool

def scanFieldInto (field : Nat) (token : Bytes) : Stores StatFrame Unit :=
  if field = 14 then do
    (parseUintTokenInto token).inside StatFrame.utime fun v f => { f with utime := v }
    store fun f => { f with foundUtime := true }
  else if field = 15 then do
    (parseUintTokenInto token).inside StatFrame.stime fun v f => { f with stime := v }
    store fun f => { f with foundStime := true }
  else if field = 22 then do
    (parseUintTokenInto token).inside (fun f => f.stat.starttime)
      fun v f => { f with stat.starttime := v }
    store fun f => { f with foundStarttime := true }
  else return ()

def scanFieldsInto : Nat → Nat → Bytes → Stores StatFrame Unit
  | 0, _, _ => return ()
  | n + 1, field, cursor =>
    match nextToken cursor with
    | none => fail
    | some (token, cursor) => do
      scanFieldInto field token
      scanFieldsInto n (field + 1) cursor

def processCpuParseStatInto (line : Bytes) : Stores ProcessCpuStat Unit :=
  let pid := strtol line
  if pid.range ∨ pid.rest.length = line.length ∨ pid.value ≤ 0 ∨ intMax < pid.value then fail
  else
    match strchr pid.rest 40, strrchr line 41 with
    | some offset, some closing =>
      let opening := line.length - pid.rest.length + offset
      if closing ≤ opening + 1 then fail
      else
        let nameLen := closing - opening - 1
        if processCpuNameMax ≤ nameLen then fail
        else
          let name := (line.drop (opening + 1)).take nameLen
          function (⟨⟨pid.value, name, 0, 0⟩, 0, 0, false, false, false⟩ : StatFrame) do
            own (scanFieldsInto 20 3 (line.drop (closing + 1)))
            let f ← own load
            if !f.foundUtime ∨ !f.foundStime ∨ !f.foundStarttime ∨
                uint64Max - f.utime < f.stime then fail
            else out (store fun _ => { f.stat with ticks := f.utime + f.stime })
    | _, _ => fail

/-- The buffer for the name, all of it, and the two counters. -/
structure LineOut where
  name : Bytes
  rxBytes : UInt64
  txBytes : UInt64
  deriving DecidableEq

/-- A buffer once a string and its NUL have been copied to it. -/
def copied (text buffer : Bytes) : Bytes := text ++ 0 :: buffer.drop (text.length + 1)

def networkParseLineInto (line : Bytes) (nameCap : Nat) : Stores LineOut Unit :=
  match strchr line 58 with
  | none => fail
  | some colon =>
    let name := ((line.take colon).dropWhile isblank).rdropWhile isblank
    if name.length = 0 ∨ nameCap ≤ name.length then fail
    else do
      store fun out => { out with name := copied name out.name }
      let fields := sscanf (u64Fields 16) (line.drop (colon + 1))
      if fields.length < 9 then fail
      else
        store fun out =>
          { out with rxBytes := Network.field fields 0, txBytes := Network.field fields 8 }

def addLineInto (rx tx : UInt64) : Stores NetworkSample Unit := do
  let sample ← load
  if UInt64.ofNat (2 ^ 64 - 1) - sample.rxBytes < rx ∨
      UInt64.ofNat (2 ^ 64 - 1) - sample.txBytes < tx then fail
  else store fun sample => ⟨sample.rxBytes + rx, sample.txBytes + tx⟩

def networkStepInto (unset : LineOut) (line : Bytes) : Stores NetworkSample Unit :=
  match (networkParseLineInto line interfaceNameMax).outcome unset with
  | none => return ()
  | some ((), ⟨name, rx, tx⟩) =>
    if cstr name = ascii "lo" then return () else addLineInto rx tx

def networkLoopInto (unset : LineOut) : List Bytes → Stores NetworkSample Unit
  | [] => return ()
  | line :: lines => do
    networkStepInto unset line
    networkLoopInto unset lines

def networkParseInto (stream : Stream) (closed : Bool) (unset : LineOut) :
    Stores NetworkSample Unit :=
  function (⟨0, 0⟩ : NetworkSample) do
    own (networkLoopInto unset ((fgetsAll netLineMax stream).map cstr))
    if stream.error ∨ !closed then fail
    else
      let sample ← own load
      out (store fun _ => sample)

def networkReadInto (env : Env) (unset : LineOut) (out : NetworkSample) :
    Calls (Option Unit × NetworkSample) := do
  match ← readFile env .netDev with
  | none => return (none, out)
  | some (stream, closed) => return networkParseInto stream closed unset out

/-! The stores of the parsers come to what the parsers return. -/

theorem cpuParseLineInto_outcome (line : Bytes) (out : CpuSample) :
    (cpuParseLineInto line).outcome out = (cpuParseLine line).map fun sample => ((), sample) := by
  unfold cpuParseLineInto cpuParseLine scanSample
  simp only [Stores.outcome_function, Stores.outcome_bind, Stores.outcome_own,
    Stores.outcome_store, Stores.outcome_pure, Option.bind_some, Option.map_some,
    Stores.outcome_ite]
  split_ifs
  · rfl
  · rfl

theorem readKibInto_outcome (line name : Bytes) (old : UInt64) :
    (readKibInto line name).outcome old =
      match readKib line name with
      | .other => some (false, old)
      | .malformed => none
      | .value v => some (true, v) := by
  unfold readKibInto readKib
  split_ifs
  · generalize sscanf Memory.kibFormat (line.drop (name.length + 1)) = fields
    split
    · rename_i value unit
      by_cases hunit : unit = ascii "kB"
      · simp only [if_pos hunit]
        rfl
      · simp only [if_neg hunit]
        rfl
    · simp only
      rfl
  · rfl

theorem memoryLoopInto_outcome (lines : List Bytes) (sample : MemorySample) (found : Nat) :
    (memoryLoopInto lines).outcome ⟨sample, found⟩ =
      (memoryLoop lines sample found).map fun r => (r.2.2, ⟨r.1, r.2.1⟩) := by
  induction lines generalizing sample found with
  | nil => rfl
  | cons line lines ih =>
    unfold memoryLoopInto memoryLoop
    simp only [Stores.outcome_bind, MemoryFrame.totalKib, MemoryFrame.availableKib,
      MemoryFrame.swapTotalKib, MemoryFrame.swapFreeKib, MemoryFrame.mark,
      Stores.outcome_inside, readKibInto_outcome]
    cases readKib line (ascii "MemTotal") with
    | malformed => rfl
    | value v => exact ih _ _
    | other =>
      simp only [Option.map_some, Option.bind_some, Bool.false_eq_true, if_false,
        Stores.outcome_bind, Stores.outcome_inside, readKibInto_outcome]
      cases readKib line (ascii "MemAvailable") with
      | malformed => rfl
      | value v => exact ih _ _
      | other =>
        simp only [Option.map_some, Option.bind_some, Bool.false_eq_true, if_false,
          Stores.outcome_bind, Stores.outcome_inside, readKibInto_outcome]
        cases readKib line (ascii "SwapTotal") with
        | malformed => rfl
        | value v => exact ih _ _
        | other =>
          simp only [Option.map_some, Option.bind_some, Bool.false_eq_true, if_false,
            Stores.outcome_bind, Stores.outcome_inside, readKibInto_outcome]
          cases readKib line (ascii "SwapFree") with
          | malformed => rfl
          | value v =>
            simp only [Option.map_some, Option.bind_some, if_true, Stores.outcome_bind,
              Stores.outcome_store, Stores.outcome_load, Stores.outcome_ite]
            split_ifs
            · rfl
            · exact ih _ _
          | other =>
            simp only [Option.map_some, Option.bind_some, Bool.false_eq_true, if_false,
              Stores.outcome_bind, Stores.outcome_pure, Stores.outcome_load, Stores.outcome_ite]
            split_ifs
            · rfl
            · exact ih _ _

theorem memoryParseInto_outcome (stream : Stream) (out : MemorySample) :
    (memoryParseInto stream).outcome out =
      (memoryParse stream).map fun sample => ((), sample) := by
  unfold memoryParseInto memoryParse
  simp only [Stores.outcome_function, Stores.outcome_bind, Stores.outcome_own,
    memoryLoopInto_outcome]
  cases memoryLoop ((fgetsAll meminfoLineMax stream).map cstr) ⟨0, 0, 0, 0⟩ 0 with
  | none => rfl
  | some r =>
    obtain ⟨sample, found, atEnd⟩ := r
    simp only [Option.map_some, Option.bind_some, Stores.outcome_own, Stores.outcome_load,
      Stores.outcome_ite]
    split_ifs <;> rfl

theorem parseNameInto_outcome (line : Bytes) (cap : Nat) (old : Bytes) :
    (parseNameInto line cap).outcome old =
      match parseName line cap with
      | .other => some (false, old)
      | .malformed => none
      | .value v => some (true, v) := by
  unfold parseNameInto parseName
  dsimp only
  split_ifs <;> rfl

theorem parseRssInto_outcome (line : Bytes) (old : UInt64) :
    (parseRssInto line).outcome old =
      match parseRss line with
      | .other => some (false, old)
      | .malformed => none
      | .value v => some (true, v) := by
  unfold parseRssInto parseRss
  split_ifs
  · generalize sscanf rssFormat (line.drop 6) = fields
    split
    · rename_i value unit
      by_cases hunit : unit = Process.unitKb
      · simp only [if_pos hunit]
        rfl
      · simp only [if_neg hunit]
        rfl
    · simp only
      rfl
  · rfl

theorem statusLoopInto_outcome (lines : List Bytes) (process : ProcessInfo) (foundName : Bool) :
    (statusLoopInto lines).outcome ⟨process, foundName⟩ =
      (lines.foldlM statusStep (process, foundName)).map fun r => ((), ⟨r.1, r.2⟩) := by
  induction lines generalizing process foundName with
  | nil => rfl
  | cons line lines ih =>
    unfold statusLoopInto
    rw [List.foldlM_cons, statusStep]
    simp only [Stores.outcome_bind, Stores.outcome_inside, parseNameInto_outcome]
    cases parseName line processNameMax with
    | malformed => rfl
    | value name => exact ih _ _
    | other =>
      simp only [Option.map_some, Option.bind_some, Bool.false_eq_true, if_false,
        Stores.outcome_bind, Stores.outcome_inside, parseRssInto_outcome]
      cases parseRss line with
      | malformed => rfl
      | value rss => exact ih _ _
      | other => exact ih _ _

theorem processParseStatusInto_outcome (stream : Stream) (pid : Int) (out : ProcessInfo) :
    (processParseStatusInto stream pid).outcome out =
      (processParseStatus stream pid).map fun process => ((), process) := by
  unfold processParseStatusInto processParseStatus
  split_ifs
  · rfl
  · simp only [Stores.outcome_function, Stores.outcome_bind, Stores.outcome_own,
      statusLoopInto_outcome]
    cases ((fgetsAll statusLineMax stream).map cstr).foldlM statusStep (⟨pid, [], 0⟩, false) with
    | none => rfl
    | some r =>
      simp only [Option.map_some, Option.bind_some, Stores.outcome_own, Stores.outcome_load,
        Stores.outcome_ite]
      split_ifs <;> rfl

theorem parseUintTokenInto_outcome (token : Bytes) (old : UInt64) :
    (parseUintTokenInto token).outcome old = (parseUintToken token).map fun v => ((), v) := by
  unfold parseUintTokenInto parseUintToken
  dsimp only
  split_ifs <;> rfl

def StatFrame.fields (f : StatFrame) : StatFields :=
  ⟨if f.foundUtime then some f.utime else none, if f.foundStime then some f.stime else none,
    if f.foundStarttime then some f.stat.starttime else none⟩

structure StatFrame.Found (f f' : StatFrame) (fields : StatFields) : Prop where
  fields : f'.fields = fields
  pid : f'.stat.pid = f.stat.pid
  name : f'.stat.name = f.stat.name

theorem scanFieldInto_outcome (field : Nat) (token : Bytes) (f : StatFrame) :
    ((scanFieldInto field token).outcome f = none ∧ scanField field token f.fields = none) ∨
      ∃ f' fields, (scanFieldInto field token).outcome f = some ((), f') ∧
        scanField field token f.fields = some fields ∧ f.Found f' fields := by
  unfold scanFieldInto scanField
  split_ifs
  · simp only [Stores.outcome_bind, Stores.outcome_inside, parseUintTokenInto_outcome]
    cases parseUintToken token with
    | none => exact Or.inl ⟨rfl, rfl⟩
    | some v => exact Or.inr ⟨_, _, rfl, rfl, rfl, rfl, rfl⟩
  · simp only [Stores.outcome_bind, Stores.outcome_inside, parseUintTokenInto_outcome]
    cases parseUintToken token with
    | none => exact Or.inl ⟨rfl, rfl⟩
    | some v => exact Or.inr ⟨_, _, rfl, rfl, rfl, rfl, rfl⟩
  · simp only [Stores.outcome_bind, Stores.outcome_inside, parseUintTokenInto_outcome]
    cases parseUintToken token with
    | none => exact Or.inl ⟨rfl, rfl⟩
    | some v => exact Or.inr ⟨_, _, rfl, rfl, rfl, rfl, rfl⟩
  · exact Or.inr ⟨_, _, rfl, rfl, rfl, rfl, rfl⟩

theorem scanFieldsInto_outcome (n field : Nat) (cursor : Bytes) (f : StatFrame) :
    ((scanFieldsInto n field cursor).outcome f = none ∧
        scanFields n field cursor f.fields = none) ∨
      ∃ f' fields, (scanFieldsInto n field cursor).outcome f = some ((), f') ∧
        scanFields n field cursor f.fields = some fields ∧ f.Found f' fields := by
  induction n generalizing field cursor f with
  | zero => exact Or.inr ⟨_, _, rfl, rfl, rfl, rfl, rfl⟩
  | succ n ih =>
    unfold scanFieldsInto scanFields
    cases nextToken cursor with
    | none => exact Or.inl ⟨rfl, rfl⟩
    | some next =>
      simp only [Stores.outcome_bind, Option.bind_some]
      rcases scanFieldInto_outcome field next.1 f with ⟨hinto, hscan⟩ | ⟨f', fields, hinto, hscan, hf⟩
      · rw [hinto, hscan]
        exact Or.inl ⟨rfl, rfl⟩
      · rw [hinto, hscan, Option.bind_some, Option.bind_some, ← hf.fields]
        rcases ih (field + 1) next.2 f' with hnone | ⟨f'', fields', hinto', hscan', hf'⟩
        · exact Or.inl hnone
        · exact Or.inr ⟨f'', fields', hinto', hscan', hf'.fields, hf'.pid.trans hf.pid,
            hf'.name.trans hf.name⟩

theorem processCpuParseStatInto_outcome (line : Bytes) (out : ProcessCpuStat) :
    (processCpuParseStatInto line).outcome out =
      (processCpuParseStat line).map fun stat => ((), stat) := by
  unfold processCpuParseStatInto processCpuParseStat
  dsimp only
  split_ifs
  · rfl
  cases strchr (strtol line).rest 40 with
  | none => rfl
  | some offset =>
    cases strrchr line 41 with
    | none => rfl
    | some closing =>
      dsimp only
      split_ifs
      · rfl
      · rfl
      · simp only [Stores.outcome_function, Stores.outcome_bind, Stores.outcome_own]
        rcases scanFieldsInto_outcome 20 3 (line.drop (closing + 1))
          ⟨⟨_, _, 0, 0⟩, 0, 0, false, false, false⟩ with
          ⟨hinto, hscan⟩ | ⟨f', fields, hinto, hscan, hf⟩
        · rw [hinto, show scanFields 20 3 _ ⟨none, none, none⟩ = none from hscan]
          rfl
        · rw [hinto, show scanFields 20 3 _ ⟨none, none, none⟩ = some fields from hscan,
            ← hf.fields]
          simp only [Option.map_some, Option.bind_some, Stores.outcome_own, Stores.outcome_load,
            Stores.outcome_ite, StatFrame.fields]
          obtain ⟨⟨pid, name, ticks, starttime⟩, utime, stime, fu, fs, fb⟩ := f'
          obtain ⟨-, rfl, rfl⟩ := hf
          cases fu <;> cases fs <;> cases fb <;> try rfl
          simp only [Bool.not_true, Bool.false_eq_true, false_or, statOf, if_true]
          split_ifs <;> rfl

theorem networkParseLineInto_outcome (line : Bytes) (nameCap : Nat) (out : LineOut) :
    (networkParseLineInto line nameCap).outcome out =
      (networkParseLine line nameCap).map fun parsed =>
        ((), ⟨copied parsed.name out.name, parsed.rxBytes, parsed.txBytes⟩) := by
  unfold networkParseLineInto networkParseLine
  cases strchr line 58 with
  | none => rfl
  | some colon =>
    dsimp only
    split_ifs with hname hfields
    · rfl
    · simp only [Stores.outcome_bind, Stores.outcome_store, Option.bind_some]
      rfl
    · simp only [Stores.outcome_bind, Stores.outcome_store, Option.bind_some]
      rfl

theorem networkParseLine_name {line : Bytes} {nameCap : Nat} {parsed : NetworkLine}
    (h : networkParseLine line nameCap = some parsed) : ∀ b ∈ parsed.name, b ∈ line := by
  unfold networkParseLine at h
  cases hcolon : strchr line 58 with
  | none =>
    rw [hcolon] at h
    cases h
  | some colon =>
    rw [hcolon] at h
    dsimp only at h
    split_ifs at h
    cases Option.some.inj h
    intro b hb
    exact List.mem_of_mem_take ((List.dropWhile_suffix _).subset ((List.rdropWhile_prefix _ _).subset hb))

theorem cstr_copied {text : Bytes} (h : 0 ∉ text) (buffer : Bytes) :
    cstr (copied text buffer) = text := by
  refine takeWhile_append_stop (fun b hb => ?_) (stops_cons.mpr rfl)
  have hne : b ≠ 0 := fun h0 => h (h0 ▸ hb)
  simpa using hne

theorem addLineInto_outcome (parsed : NetworkLine) (sample : NetworkSample) :
    (addLineInto parsed.rxBytes parsed.txBytes).outcome sample =
      (addLine sample parsed).map fun total => ((), total) := by
  unfold addLineInto addLine
  rw [Stores.outcome_load_bind, Stores.outcome_ite, apply_ite (Option.map _)]
  rfl

theorem networkStepInto_outcome (unset : LineOut) {line : Bytes} (hline : 0 ∉ line)
    (sample : NetworkSample) :
    (networkStepInto unset line).outcome sample =
      (networkStep sample line).map fun total => ((), total) := by
  unfold networkStepInto networkStep
  rw [networkParseLineInto_outcome]
  cases hparse : networkParseLine line interfaceNameMax with
  | none => rfl
  | some parsed =>
    have hname : 0 ∉ parsed.name := fun h0 => hline (networkParseLine_name hparse 0 h0)
    simp only [Option.map_some, cstr_copied hname]
    split_ifs with hlo
    · rfl
    · exact addLineInto_outcome parsed sample

theorem networkLoopInto_outcome (unset : LineOut) {lines : List Bytes}
    (hlines : ∀ line ∈ lines, 0 ∉ line) (sample : NetworkSample) :
    (networkLoopInto unset lines).outcome sample =
      (networkLoop lines sample).map fun total => ((), total) := by
  induction lines generalizing sample with
  | nil => rfl
  | cons line lines ih =>
    unfold networkLoopInto
    rw [networkLoop_cons, Stores.outcome_bind,
      networkStepInto_outcome unset (hlines line List.mem_cons_self)]
    cases networkStep sample line with
    | none => rfl
    | some total => exact ih (fun l hl => hlines l (List.mem_cons_of_mem _ hl)) total

theorem networkParseInto_outcome (stream : Stream) (closed : Bool) (unset : LineOut)
    (out : NetworkSample) :
    (networkParseInto stream closed unset).outcome out =
      if closed then (networkParse stream).map fun total => ((), total) else none := by
  have hlines : ∀ line ∈ (fgetsAll netLineMax stream).map cstr, 0 ∉ line := by
    intro line hline hzero
    obtain ⟨piece, -, rfl⟩ := List.mem_map.mp hline
    exact absurd (List.mem_takeWhile_imp hzero) (by decide)
  unfold networkParseInto networkParse
  simp only [Stores.outcome_function, Stores.outcome_bind, Stores.outcome_own,
    networkLoopInto_outcome unset hlines]
  cases networkLoop ((fgetsAll netLineMax stream).map cstr) ⟨0, 0⟩ with
  | none => cases closed <;> rfl
  | some total =>
    simp only [Option.map_some, Option.bind_some, Stores.outcome_ite]
    cases closed <;> cases stream.error <;> rfl

/-! Which of them leave the memory of a caller alone when they return -1. -/

theorem cpuParseLineInto_atomic (line : Bytes) : (cpuParseLineInto line).Atomic :=
  Stores.atomic_function <| Stores.sparing_own_bind _ fun _ =>
    Stores.sparing_ite Stores.sparing_fail <|
      Stores.sparing_own_bind _ fun _ => Stores.sparing_out_store _

theorem memoryParseInto_atomic (stream : Stream) : (memoryParseInto stream).Atomic :=
  Stores.atomic_function <| Stores.sparing_own_bind _ fun _ => Stores.sparing_own_bind _ fun _ =>
    Stores.sparing_ite Stores.sparing_fail (Stores.sparing_out_store _)

theorem processParseStatusInto_atomic (stream : Stream) (pid : Int) :
    (processParseStatusInto stream pid).Atomic := by
  unfold processParseStatusInto
  split_ifs
  · exact Stores.atomic_fail
  · exact Stores.atomic_function <| Stores.sparing_own_bind _ fun _ =>
      Stores.sparing_own_bind _ fun _ =>
        Stores.sparing_ite Stores.sparing_fail (Stores.sparing_out_store _)

theorem processCpuParseStatInto_atomic (line : Bytes) : (processCpuParseStatInto line).Atomic := by
  unfold processCpuParseStatInto
  dsimp only
  split_ifs
  · exact Stores.atomic_fail
  split
  · split_ifs
    · exact Stores.atomic_fail
    · exact Stores.atomic_fail
    · exact Stores.atomic_function <| Stores.sparing_own_bind _ fun _ =>
        Stores.sparing_own_bind _ fun _ =>
          Stores.sparing_ite Stores.sparing_fail (Stores.sparing_out_store _)
  · exact Stores.atomic_fail

theorem networkParseInto_atomic (stream : Stream) (closed : Bool) (unset : LineOut) :
    (networkParseInto stream closed unset).Atomic :=
  Stores.atomic_function <| Stores.sparing_own_bind _ fun _ =>
    Stores.sparing_ite Stores.sparing_fail <|
      Stores.sparing_own_bind _ fun _ => Stores.sparing_out_store _

theorem networkReadInto_value (env : Env) (unset : LineOut) (out : NetworkSample) (n : Nat) :
    (networkReadInto env unset out).value n =
      match (networkRead env).value n with
      | none => (none, out)
      | some total => (some (), total) := by
  unfold networkReadInto networkRead
  simp only [Calls.value_bind, readFile_value]
  cases env.opens n .netDev with
  | false => rfl
  | true =>
    simp only [if_true, Calls.value_pure]
    rw [(networkParseInto_atomic _ _ unset).eq, networkParseInto_outcome]
    cases env.closes (n + 2) with
    | false => rfl
    | true => cases networkParse (env.content n (n + 1) .netDev) <;> rfl

end RookieTop.Outputs
