import RookieTop.Collectors

/-! What each collector holds while it runs, and what it leaves to its caller. -/
namespace RookieTop.Collectors

open CLib Trace Sys ProcDir Tables Host Cpu Disk Memory Network ProcessCpu ProcessList CollectOverview
  Explorer Handles

open Process (ProcessInfo)

variable {α : Type} (env : Env)

/-- The array of a scan beside what else is held: it has room, and its items are in it. -/
structure Holds (rest : Finset Handle) (block : Block) (count : Nat) (owned : Finset Handle) :
    Prop where
  owned_eq : owned = insert (.block block) rest
  apart : .block block ∉ rest
  room : 0 < block.room
  fits : count ≤ block.room

variable {rest : Finset Handle} {block : Block} {pre : Finset Handle}

theorem Holds.none {count : Nat} (h : Holds rest block count pre) : Holds rest block 0 pre :=
  ⟨h.owned_eq, h.apart, h.room, Nat.zero_le _⟩

theorem Holds.mem_some {count : Nat} (h : Holds rest block count pre) :
    ∀ b, some block = some b → .block b ∈ pre := by
  rintro _ ⟨⟩
  rw [h.owned_eq]
  exact Finset.mem_insert_self _ _

theorem Holds.mem {count : Nat} (h : Holds rest block count pre) : .block block ∈ pre :=
  h.mem_some block rfl

theorem Holds.subset {count : Nat} (h : Holds rest block count pre) : rest ⊆ pre := by
  rw [h.owned_eq]
  exact Finset.subset_insert _ _

theorem Holds.erase {count : Nat} (h : Holds rest block count pre) :
    pre.erase (.block block) = rest := by
  rw [h.owned_eq, Finset.erase_insert h.apart]

def Scanned (rest : Finset Handle) (result : Block × Option (List α)) (owned : Finset Handle) :
    Prop :=
  Holds rest result.1 ((result.2.map List.length).getD 0) owned

inductive Grown (rest : Finset Handle) (block : Block) : Option Block → Finset Handle → Prop
  | failed {owned : Finset Handle} (old : owned = insert (.block block) rest) :
      Grown rest block none owned
  | grown {block' : Block} {owned : Finset Handle} (room : block'.room = block.room * 2)
      (new : owned = insert (.block block') rest) (apart : .block block' ∉ rest) :
      Grown rest block (some block') owned

theorem grow_triple {size count : Nat} (h : Holds rest block count pre) :
    Triple Handle.born pre (grow env size block) (Grown rest block) := by
  unfold grow
  refine triple_ite (fun _ => triple_pure (.failed h.owned_eq)) fun _ => ?_
  refine triple_bind (malloc_triple env _ pre) ?_
  rintro _ _ (_ | ⟨n, grown, hgiven, hnew⟩)
  · exact triple_pure (.failed h.owned_eq)
  · refine triple_bind (triple_release (Finset.mem_insert_of_mem h.mem)) ?_
    rintro _ _ rfl
    have hroom : grown.room = block.room * 2 := by
      split_ifs at hgiven
      rw [← Option.some.inj hgiven]
    have hne : Handle.block grown ≠ .block block := fun heq => hnew (heq ▸ h.mem)
    refine triple_pure (.grown hroom ?_ fun hmem => hnew (h.subset hmem))
    rw [Finset.erase_insert_of_ne hne, h.erase]

theorem store_triple {items : List α} {item : α} (h : Holds rest block items.length pre)
    (hroom : items.length < block.room) :
    Triple Handle.born pre (store block items item) fun stored owned =>
      Holds rest block stored.length owned := by
  refine triple_bind (useAt_triple h.mem_some hroom) ?_
  rintro _ _ rfl
  refine triple_pure ⟨h.owned_eq, h.apart, h.room, ?_⟩
  rw [List.length_append]
  exact hroom

theorem push_triple {size : Nat} {items : List α} {item : α}
    (h : Holds rest block items.length pre) :
    Triple Handle.born pre (push env size block items item) (Scanned rest) := by
  unfold push
  refine triple_ite (fun hfull => ?_) fun hfull => ?_
  · refine triple_bind (grow_triple env h) ?_
    rintro _ _ (hold | ⟨hroom, rfl, hnew⟩)
    · exact triple_pure ⟨hold, h.apart, h.room, Nat.zero_le _⟩
    · have hpos := h.room
      refine triple_bind (store_triple ⟨rfl, hnew, by omega, by omega⟩ (by omega)) ?_
      intro stored owned hstored
      exact triple_pure hstored
  · refine triple_bind (store_triple h (lt_of_le_of_ne h.fits hfull)) ?_
    intro stored owned hstored
    exact triple_pure hstored

section Scan

variable {size : Nat} {read : Int → Held Handle (Option α)} {needs : Finset Handle}

theorem scanLoop_triple {dir : Nat}
    (hread : ∀ pid, Triple Handle.born needs (read pid) fun _ owned => owned = needs)
    (hneeds : needs ⊆ rest) (hdir : .dir dir ∈ rest) {names : List Bytes} {items : List α}
    (h : Holds rest block items.length pre) :
    Triple Handle.born pre (scanLoop env size read dir names block items) (Scanned rest) := by
  induction names generalizing block items pre with
  | nil =>
    unfold scanLoop
    refine triple_bind (triple_use (h.subset hdir)) ?_
    rintro _ _ rfl
    exact triple_pure h
  | cons name names ih =>
    unfold scanLoop
    refine triple_bind (triple_use (h.subset hdir)) ?_
    rintro _ _ rfl
    cases parsePid name with
    | none => exact ih h
    | some pid =>
      refine triple_bind ((hread pid).within (hneeds.trans h.subset)) ?_
      rintro item _ rfl
      cases item with
      | none => exact ih h
      | some item =>
        refine triple_bind (push_triple env h) ?_
        rintro ⟨block', items' | items'⟩ owned hpush
        · exact triple_pure hpush
        · exact ih hpush

theorem scanAll_triple {dir : Nat × Directory}
    (hread : ∀ pid, Triple Handle.born needs (read pid) fun _ owned => owned = needs)
    (hneeds : needs ⊆ rest) (hdir : .dir dir.1 ∈ rest) (h : Holds rest block 0 pre) :
    Triple Handle.born pre (scanAll env size read dir block) (Scanned rest) := by
  unfold scanAll
  refine triple_bind (scanLoop_triple env hread hneeds hdir h) ?_
  rintro ⟨block', items⟩ owned hscan
  cases dir.2.error with
  | true => exact triple_pure hscan.none
  | false => exact triple_pure hscan

def blocks (block : Option Block) : Finset Handle := (block.map Handle.block).toFinset

@[simp] theorem blocks_none : blocks none = ∅ := rfl

theorem mem_blocks (block : Option Block) : ∀ b, block = some b → .block b ∈ blocks block := by
  rintro b rfl
  simp [blocks]

/-- What a scan leaves beside what it needs: its array, where it has one, with all items in it. -/
structure Lent (needs : Finset Handle) (result : Option (Option Block × List α))
    (owned : Finset Handle) : Prop where
  owned_eq : owned = blocks (result.bind Prod.fst) ∪ needs
  apart : Disjoint (blocks (result.bind Prod.fst)) needs
  fits : ∀ array, result = some array → array.2.length ≤ roomOf array.1

theorem Lent.none : Lent needs (none : Option (Option Block × List α)) needs :=
  ⟨(Finset.empty_union needs).symm, Finset.disjoint_empty_left needs, fun _ h => nomatch h⟩

theorem Lent.empty {items : List α} (h : items.length = 0) :
    Lent needs (some (Option.none, items)) needs := by
  refine ⟨(Finset.empty_union needs).symm, Finset.disjoint_empty_left needs, ?_⟩
  rintro _ ⟨⟩
  exact h.le

theorem Lent.within {x : Held Handle (Option (Option Block × List α))}
    (h : Triple Handle.born needs x (Lent needs)) (hneeds : needs ⊆ pre) :
    Triple Handle.born pre x (Lent pre) := by
  have hframe := h.frame (@Finset.disjoint_sdiff _ _ needs pre)
  rw [Finset.union_sdiff_of_subset hneeds] at hframe
  refine hframe.weaken ?_
  rintro result _ ⟨_, ⟨rfl, hapart, hfits⟩, hrest, rfl⟩
  rw [Finset.disjoint_union_left] at hrest
  have hall := Finset.disjoint_union_right.mpr ⟨hapart, hrest.1⟩
  rw [Finset.union_sdiff_of_subset hneeds] at hall
  refine ⟨?_, hall, hfits⟩
  rw [Finset.union_assoc, Finset.union_sdiff_of_subset hneeds]

theorem malloc_room {room n : Nat} {block : Block}
    (h : (if env.allocates n then some (⟨room, n⟩ : Block) else none) = some block) :
    block.room = room := by
  split_ifs at h
  rw [← Option.some.inj h]

theorem collect_triple
    (hread : ∀ pid, Triple Handle.born needs (read pid) fun _ owned => owned = needs) :
    Triple Handle.born needs (collect env size read) (Lent needs) := by
  unfold collect
  refine triple_bind (opendir_triple env.directory needs) ?_
  rintro _ _ (_ | ⟨n, dir, -, hdir⟩)
  · exact triple_pure .none
  have hopen := Finset.mem_insert_self (Handle.dir dir.1) needs
  have hclosed : (insert (Handle.dir dir.1) needs).erase (.dir dir.1) = needs :=
    Finset.erase_insert hdir
  refine triple_bind (malloc_triple env _ _) ?_
  rintro _ _ (_ | ⟨m, block, hgiven, hnew⟩)
  · refine triple_bind (closedir_triple hopen) ?_
    rintro closed _ rfl
    rw [hclosed]
    exact triple_pure .none
  have hroom : 0 < block.room := by
    rw [malloc_room env hgiven]
    decide
  refine triple_bind (scanAll_triple env hread (Finset.subset_insert _ _) hopen
    ⟨rfl, hnew, hroom, Nat.zero_le _⟩) ?_
  rintro ⟨block, items | items⟩ owned hscan
  · refine triple_bind (triple_release hscan.mem) ?_
    rintro _ _ rfl
    rw [hscan.erase]
    refine triple_bind (closedir_triple hopen) ?_
    rintro closed _ rfl
    rw [hclosed]
    exact triple_pure .none
  · refine triple_bind (closedir_triple (hscan.subset hopen)) ?_
    rintro closed _ rfl
    have hleft : owned.erase (.dir dir.1) = insert (.block block) needs := by
      rw [hscan.owned_eq, Finset.erase_insert_of_ne (by simp), hclosed]
    have hapart : Handle.block block ∉ needs := fun hmem =>
      hscan.apart (Finset.mem_insert_of_mem hmem)
    have hfreed : (owned.erase (.dir dir.1)).erase (.block block) = needs := by
      rw [hleft, Finset.erase_insert hapart]
    have hheld : Handle.block block ∈ owned.erase (.dir dir.1) := by
      rw [hleft]
      exact Finset.mem_insert_self _ _
    refine triple_ite (fun _ => triple_ite (fun hempty => ?_) fun _ => ?_) fun _ => ?_
    · refine triple_bind (triple_release hheld) ?_
      rintro _ _ rfl
      rw [hfreed]
      exact triple_pure (.empty hempty)
    · refine triple_pure ⟨hleft, Finset.disjoint_singleton_left.mpr hapart, ?_⟩
      rintro _ ⟨⟩
      exact hscan.fits
    · refine triple_bind (triple_release hheld) ?_
      rintro _ _ rfl
      rw [hfreed]
      exact triple_pure .none

end Scan

def Snapshot.blocks (snapshot : Snapshot) : Finset Handle :=
  {.block snapshot.items, .block snapshot.record}

theorem Snapshot.mem_blocks (snapshot : Snapshot) :
    ∀ b, some snapshot.items = some b → .block b ∈ snapshot.blocks := by
  rintro _ ⟨⟩
  exact Finset.mem_insert_self _ _

/-- A snapshot owns its record and its array, which are not one block. -/
inductive Taken : Option Snapshot → Finset Handle → Prop
  | failed : Taken none ∅
  | taken (snapshot : Snapshot) (apart : snapshot.items ≠ snapshot.record)
      (fits : snapshot.counters.length ≤ snapshot.items.room) :
      Taken (some snapshot) snapshot.blocks

theorem processCpuSnapshotFree_triple {snapshot : Option Snapshot} (h : Taken snapshot pre) :
    Triple Handle.born pre (processCpuSnapshotFree snapshot) fun _ owned => owned = ∅ := by
  rcases h with _ | ⟨snapshot, hapart, -⟩
  · exact triple_pure rfl
  · have hne : Handle.block snapshot.items ≠ .block snapshot.record := by simpa using hapart
    refine triple_bind (triple_release (Finset.mem_insert_self _ _)) ?_
    rintro _ _ rfl
    rw [Snapshot.blocks, Finset.erase_insert (by simpa using hne)]
    refine (triple_release (Finset.mem_singleton_self _)).weaken ?_
    rintro _ _ rfl
    exact Finset.erase_singleton _

theorem readCounter_balanced (pid : Int) : Balanced Handle.born (readCounter env pid) :=
  (readProcessStat_balanced env pid).bind fun _ => balanced_pure _

theorem processCpuSnapshotTake_triple :
    Triple Handle.born ∅ (processCpuSnapshotTake env) Taken := by
  unfold processCpuSnapshotTake
  refine triple_bind (opendir_triple env.directory ∅) ?_
  rintro _ _ (_ | ⟨n, dir, -, hdir⟩)
  · exact triple_pure .failed
  have hopen := Finset.mem_insert_self (Handle.dir dir.1) ∅
  have hclosed := Finset.erase_insert hdir
  refine triple_bind (malloc_triple env _ _) ?_
  rintro _ _ (_ | ⟨m, record, -, hrecord⟩)
  · refine triple_bind (closedir_triple hopen) ?_
    rintro closed _ rfl
    rw [hclosed]
    exact triple_pure .failed
  have hkept := Finset.mem_insert_self (Handle.block record) (insert (Handle.dir dir.1) ∅)
  have hopen' : Handle.dir dir.1 ∈ insert (Handle.block record) (insert (Handle.dir dir.1) ∅) :=
    Finset.mem_insert_of_mem hopen
  refine triple_bind (malloc_triple env _ _) ?_
  rintro _ _ (_ | ⟨m, block, hgiven, hnew⟩)
  · refine triple_bind (triple_release hkept) ?_
    rintro _ _ rfl
    rw [Finset.erase_insert hrecord]
    refine triple_bind (closedir_triple hopen) ?_
    rintro closed _ rfl
    rw [hclosed]
    exact triple_pure .failed
  have hroom : 0 < block.room := by
    rw [malloc_room env hgiven]
    decide
  refine triple_bind (scanAll_triple env (readCounter_balanced env) (Finset.empty_subset _) hopen'
    ⟨rfl, hnew, hroom, Nat.zero_le _⟩) ?_
  rintro ⟨block, items⟩ owned hscan
  have hne : block ≠ record := by
    rintro rfl
    exact hscan.apart (Finset.mem_insert_self _ _)
  have hown : owned = Snapshot.blocks ⟨record, block, []⟩ ∪ insert (.dir dir.1) ∅ := by
    rw [hscan.owned_eq, Snapshot.blocks, Finset.insert_union, Finset.singleton_union]
  have hapart : .dir dir.1 ∉ Snapshot.blocks ⟨record, block, []⟩ := by simp [Snapshot.blocks]
  cases items with
  | none =>
    rw [hown]
    refine triple_bind ((processCpuSnapshotFree_triple (.taken ⟨record, block, []⟩ hne (Nat.zero_le _))).giveBack
      (Finset.disjoint_insert_right.mpr ⟨hapart, Finset.disjoint_empty_right _⟩)) ?_
    rintro _ _ rfl
    refine triple_bind (closedir_triple hopen) ?_
    rintro closed _ rfl
    rw [hclosed]
    exact triple_pure .failed
  | some items =>
    refine triple_bind (closedir_triple (hscan.subset hopen')) ?_
    rintro closed _ rfl
    have hleft : owned.erase (.dir dir.1) = Snapshot.blocks ⟨record, block, items⟩ := by
      rw [hown, Finset.erase_union_distrib, hclosed, Finset.union_empty]
      exact Finset.erase_eq_of_notMem hapart
    rw [hleft]
    refine triple_ite (fun _ => ?_) fun _ => ?_
    · refine triple_bind (useFirst_triple (Snapshot.mem_blocks ⟨record, block, items⟩)
        hscan.fits) ?_
      rintro _ _ rfl
      refine triple_pure (.taken ⟨record, block, _⟩ hne ?_)
      rw [(env.qsort.perm compareCounter items).length_eq]
      exact hscan.fits
    · refine triple_bind (processCpuSnapshotFree_triple (.taken ⟨record, block, items⟩ hne hscan.fits)) ?_
      rintro _ _ rfl
      exact triple_pure .failed

theorem freeAny_triple (block : Option Block) :
    Triple Handle.born (blocks block) (freeAny block) fun _ owned => owned = ∅ := by
  cases block with
  | none => exact triple_pure rfl
  | some block =>
    refine (triple_release (mem_blocks (some block) block rfl)).weaken ?_
    rintro _ _ rfl
    exact Finset.erase_singleton _

theorem readInfo_triple {previous : Snapshot}
    (hfits : previous.counters.length ≤ previous.items.room) (systemDeltaTicks : UInt64)
    (pid : Int) :
    Triple Handle.born (blocks (some previous.items)) (readInfo env previous systemDeltaTicks pid)
      fun _ owned => owned = blocks (some previous.items) := by
  refine triple_bind ((readProcessStat_balanced env pid).keeps _) ?_
  rintro (_ | current) _ rfl
  · exact triple_pure rfl
  · refine triple_bind (useFirst_triple (mem_blocks _) hfits) ?_
    rintro _ _ rfl
    exact triple_pure rfl

theorem processCpuAllSince_triple {previous : Snapshot}
    (hfits : previous.counters.length ≤ previous.items.room) (systemDeltaTicks : UInt64) :
    Triple Handle.born (blocks (some previous.items))
      (processCpuAllSince env previous systemDeltaTicks)
      (Lent (blocks (some previous.items))) := by
  refine triple_ite (fun _ => triple_pure .none) fun _ => ?_
  refine triple_bind (collect_triple env (readInfo_triple env hfits systemDeltaTicks)) ?_
  rintro (_ | ⟨block, items⟩) owned ⟨rfl, hapart, hitems⟩
  · exact triple_pure ⟨rfl, hapart, fun _ h => nomatch h⟩
  · refine triple_bind (useFirst_triple (fun b hb => Finset.mem_union_left _ (mem_blocks block b hb))
      (hitems _ rfl)) ?_
    rintro _ _ rfl
    refine triple_pure ⟨rfl, hapart, ?_⟩
    rintro _ ⟨⟩
    rw [(env.qsort.perm compareInfoPid items).length_eq]
    exact hitems _ rfl

theorem processCpuTopSince_triple {previous : Snapshot}
    (hfits : previous.counters.length ≤ previous.items.room) (systemDeltaTicks : UInt64)
    (cap : Nat) :
    Triple Handle.born (blocks (some previous.items))
      (processCpuTopSince env previous systemDeltaTicks cap)
      fun _ owned => owned = blocks (some previous.items) := by
  refine triple_ite (fun _ => triple_pure rfl) fun _ => ?_
  refine triple_bind (processCpuAllSince_triple env hfits systemDeltaTicks) ?_
  rintro (_ | ⟨block, all⟩) owned ⟨rfl, hapart, hall⟩
  · exact triple_pure (Finset.empty_union _)
  · refine triple_bind (useFirst_triple (fun b hb => Finset.mem_union_left _ (mem_blocks block b hb))
      (hall _ rfl)) ?_
    rintro _ _ rfl
    refine triple_bind ((freeAny_triple block).giveBack hapart) ?_
    rintro _ _ rfl
    exact triple_pure rfl

theorem processListRead_triple : Triple Handle.born ∅ (processListRead env) (Lent ∅) :=
  collect_triple env (readRow_balanced env)

theorem topLoop_triple {dir cap : Nat} (hdir : .dir dir ∈ pre) (names : List Bytes)
    (top : List ProcessInfo × Nat) :
    Triple Handle.born pre (topLoop env dir cap names top) fun _ owned => owned = pre := by
  induction names generalizing top with
  | nil =>
    refine triple_bind (triple_use hdir) ?_
    rintro _ _ rfl
    exact triple_pure rfl
  | cons name names ih =>
    unfold topLoop
    refine triple_bind (triple_use hdir) ?_
    rintro _ _ rfl
    cases parsePid name with
    | none => exact ih top
    | some pid =>
      refine triple_bind ((readProcess_balanced env pid).keeps _) ?_
      rintro (_ | process) _ rfl
      · exact ih top
      · exact ih _

theorem processTopMemory_balanced (cap : Nat) :
    Balanced Handle.born (processTopMemory env cap) := by
  refine (balanced_pure _).ite (triple_bind (opendir_triple env.directory ∅) ?_)
  rintro _ _ (_ | ⟨n, dir, -, hdir⟩)
  · exact balanced_pure _
  have hopen := Finset.mem_insert_self (Handle.dir dir.1) ∅
  refine triple_bind (topLoop_triple env hopen _ _) ?_
  rintro top _ rfl
  refine triple_bind (closedir_triple hopen) ?_
  rintro closed _ rfl
  exact triple_pure (Finset.erase_insert hdir)

theorem thermalLoop_triple {dir : Nat} (hdir : .dir dir ∈ pre) (zones : List Bytes)
    (hottest : ℚ × Bytes) :
    Triple Handle.born pre (thermalLoop env dir zones hottest) fun _ owned => owned = pre := by
  induction zones generalizing hottest with
  | nil =>
    refine triple_bind (triple_use hdir) ?_
    rintro _ _ rfl
    exact triple_pure rfl
  | cons zone zones ih =>
    unfold thermalLoop
    refine triple_bind (triple_use hdir) ?_
    rintro _ _ rfl
    refine triple_ite (fun _ => ?_) fun _ => ih hottest
    refine triple_bind ((readFirstLine_balanced env _ _ _).keeps _) ?_
    rintro line _ rfl
    cases hotter hottest.1 line with
    | none => exact ih hottest
    | some temperature =>
      refine triple_bind ((readFirstLine_balanced env _ _ _).keeps _) ?_
      rintro type _ rfl
      exact ih _

theorem readThermal_balanced : Balanced Handle.born (readThermal env) := by
  refine triple_bind (opendir_triple env.thermal ∅) ?_
  rintro _ _ (_ | ⟨n, dir, -, hdir⟩)
  · exact balanced_pure _
  have hopen := Finset.mem_insert_self (Handle.dir dir.1) ∅
  refine triple_bind (thermalLoop_triple env hopen _ _) ?_
  rintro hottest _ rfl
  refine triple_bind (closedir_triple hopen) ?_
  rintro closed _ rfl
  exact triple_pure (Finset.erase_insert hdir)

theorem hostRead_balanced : Balanced Handle.born (hostRead env) := by
  refine Balanced.bind (triple_keeps _) fun hostname => ?_
  cases hostname with
  | none => exact balanced_pure _
  | some hostname =>
    refine Balanced.bind (triple_keeps _) fun release => ?_
    cases release with
    | none => exact balanced_pure _
    | some release =>
      refine Balanced.bind (triple_keeps _) fun cores => ?_
      refine (balanced_pure _).ite ((scanFile_balanced env _ _).bind fun uptime => ?_)
      cases uptime with
      | none => exact balanced_pure _
      | some uptime =>
        refine (scanFile_balanced env _ _).bind fun loads => ?_
        cases loads with
        | none => exact balanced_pure _
        | some loads => exact (readThermal_balanced env).bind fun _ => balanced_pure _

theorem networkAt_balanced : Balanced Handle.born (networkAt env) := by
  refine (networkRead_balanced env).bind fun net => ?_
  cases net with
  | none => exact balanced_pure _
  | some net => exact Balanced.bind (triple_keeps _) fun _ => balanced_pure _

theorem networkSince_balanced (first : Option (NetworkSample × Timespec)) :
    Balanced Handle.born (networkSince env first) := by
  cases first with
  | none => exact balanced_pure _
  | some first =>
    refine (networkAt_balanced env).bind fun curr => ?_
    cases curr <;> exact balanced_pure _

theorem cpuTopSince_triple {previous : Option Snapshot} (h : Taken previous pre)
    (systemDeltaTicks : UInt64) :
    Triple Handle.born pre (cpuTopSince env previous systemDeltaTicks) fun _ owned => owned = pre := by
  rcases h with _ | ⟨previous, -, hfits⟩
  · exact triple_pure rfl
  · refine (processCpuTopSince_triple env hfits systemDeltaTicks _).within ?_
    exact Finset.singleton_subset_iff.mpr (Finset.mem_insert_self _ _)

theorem freed_triple {previous : Option Snapshot} (h : Taken previous pre)
    (hrest : Disjoint rest pre) (result : Option α) :
    Triple Handle.born (rest ∪ pre) (do
      processCpuSnapshotFree previous
      return result) fun a owned => owned = rest ∧ a = result := by
  rw [Finset.union_comm]
  refine triple_bind ((processCpuSnapshotFree_triple h).giveBack hrest.symm) ?_
  rintro _ _ rfl
  exact triple_pure ⟨rfl, rfl⟩

theorem failed_triple {previous : Option Snapshot} (h : Taken previous pre) (result : Option α) :
    Triple Handle.born pre (do
      processCpuSnapshotFree previous
      return result) fun _ owned => owned = ∅ := by
  have hfreed := freed_triple h (Finset.disjoint_empty_left pre) result
  rw [Finset.empty_union] at hfreed
  exact hfreed.weaken fun _ _ hpost => hpost.1

theorem finishOverview_triple {previous : Option Snapshot} (h : Taken previous pre)
    (host : Option HostInfo) (memory : MemorySample) (disk : DiskSample)
    (cpuPrev cpuCurr : CpuSample) (first : Option (NetworkSample × Timespec)) :
    Triple Handle.born pre (finishOverview env host memory disk cpuPrev cpuCurr first previous)
      fun _ owned => owned = ∅ := by
  refine triple_bind ((networkSince_balanced env first).keeps _) ?_
  rintro rates _ rfl
  cases cpuUsage cpuPrev cpuCurr with
  | none => exact failed_triple h _
  | some cpuPercent =>
    cases cpuTotalDelta cpuPrev cpuCurr with
    | none => exact failed_triple h _
    | some systemDeltaTicks =>
      cases memoryUsage memory with
      | none => exact failed_triple h _
      | some usage =>
        cases diskUsage disk with
        | none => exact failed_triple h _
        | some diskUsed =>
          refine triple_bind (cpuTopSince_triple env h systemDeltaTicks) ?_
          rintro cpuTop _ rfl
          refine triple_bind (processCpuSnapshotFree_triple h) ?_
          rintro _ _ rfl
          exact (processTopMemory_balanced env _).bind fun _ => balanced_pure _

theorem waitOverview_triple {previous : Option Snapshot} (h : Taken previous pre)
    (host : Option HostInfo) (memory : MemorySample) (disk : DiskSample) (cpuPrev : CpuSample)
    (first : Option (NetworkSample × Timespec)) :
    Triple Handle.born pre (waitOverview env host memory disk cpuPrev first previous)
      fun _ owned => owned = ∅ := by
  refine triple_bind (triple_keeps _) ?_
  rintro waited _ rfl
  refine triple_ite (fun _ => ?_) fun _ => failed_triple h _
  refine triple_bind ((cpuRead_balanced env).keeps _) ?_
  rintro (_ | cpuCurr) _ rfl
  · exact failed_triple h _
  · exact finishOverview_triple env h host memory disk cpuPrev cpuCurr first

theorem collectOverview_balanced : Balanced Handle.born (collectOverview env) := by
  refine (hostRead_balanced env).bind fun host => ?_
  refine (memoryRead_balanced env).bind fun memory => ?_
  cases memory with
  | none => exact balanced_pure _
  | some memory =>
    refine Balanced.bind (triple_keeps _) fun disk => ?_
    cases disk with
    | none => exact balanced_pure _
    | some disk =>
      refine (cpuRead_balanced env).bind fun cpuPrev => ?_
      cases cpuPrev with
      | none => exact balanced_pure _
      | some cpuPrev =>
        refine (networkAt_balanced env).bind fun first => ?_
        refine triple_bind (processCpuSnapshotTake_triple env) fun previous owned htaken => ?_
        exact waitOverview_triple env htaken host memory disk cpuPrev first

def Opened (result : Option Snapshot × Option (Snapshot × UInt64)) (owned : Finset Handle) : Prop :=
  Taken result.1 owned ∧ ∀ window, result.2 = some window → result.1 = some window.1

theorem Taken.unopened {previous : Option Snapshot} (h : Taken previous pre) :
    Opened (previous, none) pre :=
  ⟨h, fun _ hwindow => nomatch hwindow⟩

theorem sampleWindow_triple : Triple Handle.born ∅ (sampleWindow env) Opened := by
  refine triple_bind (cpuRead_balanced env) ?_
  rintro (_ | cpuPrev) _ rfl
  · exact triple_pure Taken.failed.unopened
  refine triple_bind (processCpuSnapshotTake_triple env) ?_
  rintro (_ | previous) owned htaken
  · cases htaken
    exact triple_pure Taken.failed.unopened
  refine triple_bind (triple_keeps _) ?_
  rintro waited _ rfl
  refine triple_ite (fun _ => ?_) fun _ => triple_pure htaken.unopened
  refine triple_bind ((cpuRead_balanced env).keeps _) ?_
  rintro (_ | cpuCurr) _ rfl
  · exact triple_pure htaken.unopened
  · refine triple_pure ⟨htaken, fun window hwindow => ?_⟩
    obtain ⟨ticks, -, rfl⟩ := Option.map_eq_some_iff.mp hwindow
    rfl

theorem lent_rows (result : Option (Option Block × List α))
    (hfits : ∀ array, result = some array → array.2.length ≤ roomOf array.1)
    (a : Option (Option Block × List α)) (owned : Finset Handle)
    (h : owned = blocks (result.bind Prod.fst) ∧ a = result) : Lent ∅ a owned := by
  obtain ⟨rfl, rfl⟩ := h
  exact ⟨(Finset.union_empty _).symm, Finset.disjoint_empty_right _, hfits⟩

theorem sampleProcessRows_triple :
    Triple Handle.born ∅ (sampleProcessRows env) (Lent ∅) := by
  refine triple_bind (sampleWindow_triple env) ?_
  rintro ⟨previous, window⟩ snapshot ⟨htaken, hwindow⟩
  refine triple_bind (Lent.within (processListRead_triple env) (Finset.empty_subset snapshot)) ?_
  rintro (_ | ⟨block, rows⟩) _ ⟨rfl, hapart, hrows⟩
  · exact (freed_triple htaken hapart _).weaken (lent_rows none fun _ h => nomatch h)
  rw [Option.bind_some] at hapart ⊢
  have hfits := hrows _ rfl
  cases window with
  | none => exact (freed_triple htaken hapart _).weaken (lent_rows (some (block, rows)) hrows)
  | some window =>
    cases hwindow window rfl
    cases htaken with
    | taken _ hne hcounters =>
    have htaken := Taken.taken window.1 hne hcounters
    have hitems : blocks (some window.1.items) ⊆ blocks block ∪ window.1.blocks :=
      Finset.singleton_subset_iff.mpr
        (Finset.mem_union_right _ (Finset.mem_insert_self _ _))
    refine triple_bind (Lent.within (processCpuAllSince_triple env hcounters window.2) hitems) ?_
    rintro (_ | ⟨items, infos⟩) _ ⟨rfl, hinfos, hall⟩
    · rw [Option.bind_none, blocks_none, Finset.empty_union]
      exact (freed_triple htaken hapart _).weaken (lent_rows (some (block, rows)) hrows)
    · rw [Option.bind_some] at hinfos ⊢
      refine triple_bind (useFirst_triple
        (fun b hb => Finset.mem_union_left _ (mem_blocks items b hb)) (hall _ rfl)) ?_
      rintro _ _ rfl
      refine triple_bind (useFirst_triple (fun b hb =>
        Finset.mem_union_right _ (Finset.mem_union_left _ (mem_blocks block b hb))) hfits) ?_
      rintro _ _ rfl
      refine triple_bind ((freeAny_triple items).giveBack hinfos) ?_
      rintro _ _ rfl
      have hjoined : (rows.map (joinShare infos)).length ≤ roomOf block := by
        rw [List.length_map]
        exact hfits
      refine (freed_triple htaken hapart _).weaken
        (lent_rows (some (block, rows.map (joinShare infos))) ?_)
      rintro _ ⟨⟩
      exact hjoined

end RookieTop.Collectors
