import RookieTop.CLib.Numeral
import RookieTop.Sys

/-! Scans of `/proc`. Three collectors go through its numeric entries, read one
record from each and collect the records in an array that doubles when full. -/
namespace RookieTop.ProcDir

open CLib Trace Sys

def initialCapacity : Nat := 128
def sizeMax : Nat := 2 ^ 64 - 1
def intMax : Int := 2147483647

/-- `parse_pid`, the same in every collector. -/
def parsePid (text : Bytes) : Option Int :=
  let c := strtol text
  if text = [] ∨ c.range ∨ c.rest ≠ [] ∨ c.value ≤ 0 ∨ intMax < c.value then none
  else some c.value

variable {α : Type} (env : Env)

def push (size capacity : Nat) (items : List α) (item : α) :
    Calls (Option (Nat × List α)) :=
  if items.length = capacity then
    if sizeMax / 2 / size < capacity then pure none
    else do
      let grown ← Calls.call env.allocates
      return if grown then some (capacity * 2, items ++ [item]) else none
  else pure (some (capacity, items ++ [item]))

/-- The loop over the entries. One that is no pid or can not be read is skipped. -/
def scanLoop (size : Nat) (read : Int → Calls (Option α)) :
    List Bytes → Nat → List α → Calls (Option (List α))
  | [], _, items => pure (some items)
  | name :: names, capacity, items =>
    match parsePid name with
    | none => scanLoop size read names capacity items
    | some pid => do
      match ← read pid with
      | none => scanLoop size read names capacity items
      | some item =>
        match ← push env size capacity items item with
        | none => pure none
        | some (capacity, items) => scanLoop size read names capacity items

def allocateAll : Nat → Calls Bool
  | 0 => pure true
  | n + 1 => do
    if ← Calls.call env.allocates then allocateAll n else pure false

/-- A scan that first allocates `buffers` buffers and keeps records of `size` bytes. -/
def scanProc (buffers size : Nat) (read : Int → Calls (Option α)) :
    Calls (Option (List α)) := do
  match ← Calls.call env.directory with
  | none => pure none
  | some dir =>
    if ← allocateAll env buffers then
      match ← scanLoop env size read dir.names initialCapacity [] with
      | none => pure none
      | some items => pure (if dir.error then none else if dir.closes then some items else none)
    else pure none

theorem parsePid_decimal {pid : Int} (hpid : 0 < pid) (hmax : pid ≤ intMax) :
    parsePid (decimal pid.toNat) = some pid := by
  have hfits : pid.toNat < 2 ^ 63 := by
    unfold intMax at hmax
    omega
  have hparse := strtol_decimal (s := []) hfits stops_nil
  rw [List.append_nil, Int.toNat_of_nonneg (by omega)] at hparse
  unfold parsePid
  simp only [hparse, decimal_ne_nil]
  simp
  omega

theorem parsePid_pos {text : Bytes} {pid : Int} (h : parsePid text = some pid) : 0 < pid := by
  unfold parsePid at h
  dsimp only at h
  split_ifs at h with hbad
  simp only [not_or, not_le] at hbad
  rw [← Option.some.inj h]
  exact hbad.2.2.2.1

structure Visits (read : Int → Calls (Option α)) (names : List Bytes) (start stop : Nat)
    (visits : List (Int × Nat)) : Prop where
  pids : visits.map Prod.fst = names.filterMap parsePid
  within : ∀ v ∈ visits, start ≤ v.2 ∧ (read v.1).after v.2 ≤ stop

def records (read : Int → Calls (Option α)) (visits : List (Int × Nat)) : List α :=
  visits.filterMap fun v => (read v.1).value v.2

section Scan

variable {env} {size : Nat} {read : Int → Calls (Option α)}

theorem Visits.skip {name : Bytes} {names : List Bytes} {start stop : Nat}
    {visits : List (Int × Nat)} (h : Visits read names start stop visits)
    (hname : parsePid name = none) : Visits read (name :: names) start stop visits := by
  refine ⟨?_, h.within⟩
  rw [h.pids, List.filterMap_cons_none hname]

theorem Visits.cons {name : Bytes} {names : List Bytes} {pid : Int} {n start stop : Nat}
    {visits : List (Int × Nat)} (h : Visits read names start stop visits)
    (hname : parsePid name = some pid) (hstart : (read pid).after n ≤ start) (hstop : start ≤ stop) :
    Visits read (name :: names) n stop ((pid, n) :: visits) := by
  have hread := Calls.le_after (read pid) n
  constructor
  · rw [List.map_cons, h.pids, List.filterMap_cons_some hname]
  · intro v hv
    rcases List.mem_cons.mp hv with rfl | hv
    · exact ⟨le_refl n, hstart.trans hstop⟩
    · have hwithin := h.within v hv
      exact ⟨by omega, hwithin.2⟩

theorem Visits.mono {names : List Bytes} {start start' stop : Nat} {visits : List (Int × Nat)}
    (h : Visits read names start stop visits) (hstart : start' ≤ start) :
    Visits read names start' stop visits :=
  ⟨h.pids, fun v hv => ⟨hstart.trans (h.within v hv).1, (h.within v hv).2⟩⟩

theorem records_cons_none {pid : Int} {n : Nat} {visits : List (Int × Nat)}
    (h : (read pid).value n = none) :
    records read ((pid, n) :: visits) = records read visits :=
  List.filterMap_cons_none h

theorem records_cons_some {pid : Int} {n : Nat} {visits : List (Int × Nat)} {item : α}
    (h : (read pid).value n = some item) :
    records read ((pid, n) :: visits) = item :: records read visits :=
  List.filterMap_cons_some h

theorem map_records_sublist {key : α → Int} {visits : List (Int × Nat)}
    (hkey : ∀ v ∈ visits, ∀ item, (read v.1).value v.2 = some item → key item = v.1) :
    ((records read visits).map key).Sublist (visits.map Prod.fst) := by
  induction visits with
  | nil => exact List.Sublist.slnil
  | cons v visits ih =>
    have hrest := ih fun w hw => hkey w (by simp [hw])
    cases hread : (read v.1).value v.2 with
    | none =>
      rw [records_cons_none hread]
      exact hrest.cons _
    | some item =>
      rw [records_cons_some hread, List.map_cons, hkey v (by simp) item hread]
      exact hrest.cons_cons _

theorem mem_records {visits : List (Int × Nat)} {item : α} :
    item ∈ records read visits ↔ ∃ v ∈ visits, (read v.1).value v.2 = some item :=
  List.mem_filterMap

theorem push_some {capacity capacity' n : Nat} {items items' : List α} {item : α}
    (h : (push env size capacity items item).value n = some (capacity', items')) :
    items' = items ++ [item] := by
  unfold push at h
  split_ifs at h
  · cases h
  · simp only [Calls.value_bind, Calls.value_pure] at h
    split_ifs at h
    exact (Prod.mk.inj (Option.some.inj h)).2.symm
  · exact (Prod.mk.inj (Option.some.inj h)).2.symm

/-- A scan visits the pids in the order of the entries, and keeps what it can read. -/
theorem scanLoop_some {names : List Bytes} {capacity n : Nat} {items out : List α}
    (h : (scanLoop env size read names capacity items).value n = some out) :
    ∃ visits, Visits read names n ((scanLoop env size read names capacity items).after n) visits ∧
      out = items ++ records read visits := by
  induction names generalizing capacity items n with
  | nil =>
    refine ⟨[], ⟨rfl, by simp⟩, ?_⟩
    rw [← Option.some.inj h]
    exact (List.append_nil items).symm
  | cons name names ih =>
    unfold scanLoop at h ⊢
    cases hname : parsePid name with
    | none =>
      simp only [hname] at h ⊢
      obtain ⟨visits, hvisits, rfl⟩ := ih h
      exact ⟨visits, hvisits.skip hname, rfl⟩
    | some pid =>
      simp only [hname, Calls.value_bind, Calls.after_bind] at h ⊢
      cases hread : (read pid).value n with
      | none =>
        simp only [hread] at h ⊢
        obtain ⟨visits, hvisits, rfl⟩ := ih h
        refine ⟨_, hvisits.cons hname (le_refl _) (Calls.le_after _ _), ?_⟩
        rw [records_cons_none hread]
      | some item =>
        simp only [hread, Calls.value_bind, Calls.after_bind] at h ⊢
        cases hpush : (push env size capacity items item).value ((read pid).after n) with
        | none => simp [hpush] at h
        | some pushed =>
          obtain ⟨capacity', items'⟩ := pushed
          simp only [hpush] at h ⊢
          obtain ⟨visits, hvisits, rfl⟩ := ih h
          refine ⟨_, hvisits.cons hname (Calls.le_after _ _) (Calls.le_after _ _), ?_⟩
          rw [push_some hpush, records_cons_some hread, List.append_assoc]
          rfl

theorem push_isSome {capacity n : Nat} {items : List α} (item : α)
    (hfits : items.length ≤ sizeMax / 2 / size)
    (hallocates : ∀ t, n ≤ t → t < (push env size capacity items item).after n →
      env.allocates t = true) :
    ((push env size capacity items item).value n).isSome = true := by
  unfold push at hallocates ⊢
  by_cases hfull : items.length = capacity
  · have hgrows : ¬ sizeMax / 2 / size < capacity := by omega
    rw [if_pos hfull, if_neg hgrows] at hallocates ⊢
    have hgrown := hallocates n (le_refl n) (by simp)
    simp [hgrown]
  · simp [hfull]

theorem scanLoop_isSome {names : List Bytes} {capacity n : Nat} {items : List α}
    (hfits : items.length + (names.filterMap parsePid).length ≤ sizeMax / 2 / size)
    (hallocates : ∀ t, n ≤ t → t < (scanLoop env size read names capacity items).after n →
      env.allocates t = true) :
    ((scanLoop env size read names capacity items).value n).isSome = true := by
  induction names generalizing capacity items n with
  | nil => rfl
  | cons name names ih =>
    unfold scanLoop at hallocates ⊢
    cases hname : parsePid name with
    | none =>
      rw [List.filterMap_cons_none hname] at hfits
      simp only [hname] at hallocates ⊢
      exact ih hfits hallocates
    | some pid =>
      rw [List.filterMap_cons_some hname, List.length_cons] at hfits
      have hread := Calls.le_after (read pid) n
      simp only [hname, Calls.value_bind, Calls.after_bind] at hallocates ⊢
      cases hitem : (read pid).value n with
      | none =>
        simp only [hitem] at hallocates ⊢
        exact ih (by omega) fun t ht => hallocates t (by omega)
      | some item =>
        simp only [hitem, Calls.value_bind, Calls.after_bind] at hallocates ⊢
        have hpushed := @push_isSome α env size capacity ((read pid).after n) items item
          (by omega) fun t ht hlt => by
            apply hallocates t (by omega)
            exact lt_of_lt_of_le hlt (Calls.le_after _ _)
        have hpush := Calls.le_after (push env size capacity items item) ((read pid).after n)
        obtain ⟨⟨capacity', items'⟩, hsome⟩ := Option.isSome_iff_exists.mp hpushed
        simp only [hsome] at hallocates ⊢
        apply ih
        · rw [push_some hsome, List.length_append, List.length_singleton]
          omega
        · exact fun t ht => hallocates t (by omega)

theorem scanProc_some {buffers n : Nat} {out : List α}
    (h : (scanProc env buffers size read).value n = some out) :
    ∃ dir visits, env.directory n = some dir ∧
      Visits read dir.names n ((scanProc env buffers size read).after n) visits ∧
      out = records read visits := by
  unfold scanProc at h ⊢
  simp only [Calls.value_bind, Calls.after_bind, Calls.value_call, Calls.after_call] at h ⊢
  cases hdir : env.directory n with
  | none => simp [hdir] at h
  | some dir =>
    simp only [hdir, Calls.value_bind, Calls.after_bind] at h ⊢
    have hbuffers := Calls.le_after (allocateAll env buffers) (n + 1)
    cases hallocated : (allocateAll env buffers).value (n + 1) with
    | false => simp [hallocated] at h
    | true =>
      simp only [hallocated, if_true, Calls.value_bind, Calls.after_bind] at h ⊢
      cases hloop : (scanLoop env size read dir.names initialCapacity []).value
          ((allocateAll env buffers).after (n + 1)) with
      | none => simp [hloop] at h
      | some items =>
        simp only [hloop, Calls.value_pure, Calls.after_pure] at h ⊢
        obtain ⟨visits, hvisits, hitems⟩ := scanLoop_some hloop
        refine ⟨dir, visits, rfl, hvisits.mono (by omega), ?_⟩
        split_ifs at h
        rw [← Option.some.inj h, hitems, List.nil_append]

theorem allocateAll_eq_true {buffers n : Nat}
    (hallocates : ∀ t, n ≤ t → t < (allocateAll env buffers).after n → env.allocates t = true) :
    (allocateAll env buffers).value n = true := by
  induction buffers generalizing n with
  | zero => rfl
  | succ buffers ih =>
    unfold allocateAll at hallocates ⊢
    simp only [Calls.value_bind, Calls.after_bind, Calls.value_call, Calls.after_call]
      at hallocates ⊢
    have hfirst : env.allocates n = true := by
      apply hallocates n (le_refl n)
      exact lt_of_lt_of_le (Nat.lt_succ_self n) (Calls.le_after _ _)
    simp only [hfirst, if_true] at hallocates ⊢
    exact ih fun t ht => hallocates t (by omega)

theorem scanProc_isSome {buffers n : Nat} {dir : Directory} (hdir : env.directory n = some dir)
    (herror : dir.error = false) (hcloses : dir.closes = true)
    (hfits : (dir.names.filterMap parsePid).length ≤ sizeMax / 2 / size)
    (hallocates : ∀ t, n ≤ t → t < (scanProc env buffers size read).after n →
      env.allocates t = true) :
    ((scanProc env buffers size read).value n).isSome = true := by
  unfold scanProc at hallocates ⊢
  simp only [Calls.value_bind, Calls.after_bind, Calls.value_call, Calls.after_call, hdir]
    at hallocates ⊢
  have hbuffers := Calls.le_after (allocateAll env buffers) (n + 1)
  have hallocated : (allocateAll env buffers).value (n + 1) = true := by
    apply allocateAll_eq_true
    intro t ht hlt
    exact hallocates t (by omega) (lt_of_lt_of_le hlt (Calls.le_after _ _))
  simp only [hallocated, if_true, Calls.value_bind, Calls.after_bind] at hallocates ⊢
  have hloop := @scanLoop_isSome α env size read dir.names initialCapacity
    ((allocateAll env buffers).after (n + 1)) [] (by simpa using hfits) fun t ht hlt =>
      hallocates t (by omega) (lt_of_lt_of_le hlt (Calls.le_after _ _))
  obtain ⟨items, hitems⟩ := Option.isSome_iff_exists.mp hloop
  simp [hitems, herror, hcloses]

section Part

variable {β : Type} {part : α → β} {readPart : Int → Calls (Option β)}

theorem push_map (capacity : Nat) (items : List α) (item : α) (n : Nat) :
    (push env size capacity (items.map part) (part item)).value n =
        ((push env size capacity items item).value n).map (Prod.map id (List.map part)) ∧
      (push env size capacity (items.map part) (part item)).after n =
        (push env size capacity items item).after n := by
  unfold push
  rw [List.length_map]
  split_ifs
  · exact ⟨rfl, rfl⟩
  · constructor
    · simp only [Calls.value_bind, Calls.value_pure]
      cases (Calls.call env.allocates).value n <;> simp
    · simp only [Calls.after_bind, Calls.after_pure]
  · exact ⟨by simp, rfl⟩

theorem scanLoop_map (hread : ∀ pid n, (readPart pid).value n = ((read pid).value n).map part ∧
      (readPart pid).after n = (read pid).after n)
    (names : List Bytes) (capacity : Nat) (items : List α) (n : Nat) :
    (scanLoop env size readPart names capacity (items.map part)).value n =
      ((scanLoop env size read names capacity items).value n).map (List.map part) := by
  induction names generalizing capacity items n with
  | nil => rfl
  | cons name names ih =>
    unfold scanLoop
    cases parsePid name with
    | none => exact ih capacity items n
    | some pid =>
      simp only [Calls.value_bind, hread]
      cases (read pid).value n with
      | none => exact ih capacity items _
      | some item =>
        simp only [Option.map_some, Calls.value_bind]
        have hpush := @push_map α env size β part capacity items item
          ((read pid).after n)
        rw [hpush.1, hpush.2]
        cases (push env size capacity items item).value ((read pid).after n) with
        | none => rfl
        | some pushed => exact ih pushed.1 pushed.2 _

theorem scanProc_map (hread : ∀ pid n, (readPart pid).value n = ((read pid).value n).map part ∧
      (readPart pid).after n = (read pid).after n) (buffers n : Nat) :
    (scanProc env buffers size readPart).value n =
      ((scanProc env buffers size read).value n).map (List.map part) := by
  unfold scanProc
  simp only [Calls.value_bind, Calls.value_call, Calls.after_call]
  cases env.directory n with
  | none => rfl
  | some dir =>
    simp only [Calls.value_bind]
    cases (allocateAll env buffers).value (n + 1) with
    | false => rfl
    | true =>
      have hloop := @scanLoop_map α env size read β part readPart hread dir.names
        initialCapacity [] ((allocateAll env buffers).after (n + 1))
      rw [List.map_nil] at hloop
      simp only [if_true, Calls.value_bind, hloop]
      cases (scanLoop env size read dir.names initialCapacity []).value
          ((allocateAll env buffers).after (n + 1)) with
      | none => rfl
      | some items =>
        simp only [Option.map_some, Calls.value_pure]
        split_ifs <;> rfl

end Part

end Scan

end RookieTop.ProcDir
