import RookieTop.CLib.Lines
import RookieTop.CLib.Written
import RookieTop.Memory

/-! The four keys of `/proc/meminfo` among any other lines, in any order. -/
namespace RookieTop.MemoryLines

open CLib Memory

inductive Key where
  | memTotal
  | memAvailable
  | swapTotal
  | swapFree
  deriving DecidableEq, Repr

namespace Key

def all : List Key := [.memTotal, .memAvailable, .swapTotal, .swapFree]

def name : Key → Bytes
  | memTotal => ascii "MemTotal"
  | memAvailable => ascii "MemAvailable"
  | swapTotal => ascii "SwapTotal"
  | swapFree => ascii "SwapFree"

def start (k : Key) : Bytes := k.name ++ ascii ":"

def bit : Key → Nat
  | memTotal => foundTotal
  | memAvailable => foundAvailable
  | swapTotal => foundSwapTotal
  | swapFree => foundSwapFree

def get : Key → MemorySample → UInt64
  | memTotal => MemorySample.totalKib
  | memAvailable => MemorySample.availableKib
  | swapTotal => MemorySample.swapTotalKib
  | swapFree => MemorySample.swapFreeKib

def store : Key → UInt64 → MemorySample → MemorySample
  | memTotal => fun v s => { s with totalKib := v }
  | memAvailable => fun v s => { s with availableKib := v }
  | swapTotal => fun v s => { s with swapTotalKib := v }
  | swapFree => fun v s => { s with swapFreeKib := v }

theorem get_store (k : Key) (v : UInt64) (s : MemorySample) : k.get (k.store v s) = v := by
  cases k <;> rfl

theorem get_store_ne {j k : Key} (h : j ≠ k) (v : UInt64) (s : MemorySample) :
    j.get (k.store v s) = j.get s := by
  cases j <;> cases k <;> first | rfl | exact absurd rfl h

theorem ext {s s' : MemorySample} (h : ∀ k : Key, k.get s = k.get s') : s = s' := by
  cases s
  cases s'
  rw [MemorySample.mk.injEq]
  exact ⟨h memTotal, h memAvailable, h swapTotal, h swapFree⟩

theorem start_inj {j k : Key} (h : j.start <+: k.start) : j = k := by
  revert j k
  intro j k
  cases j <;> cases k <;> decide

end Key

def Has (found : Nat) (k : Key) : Prop := found &&& k.bit ≠ 0

instance (found : Nat) (k : Key) : Decidable (Has found k) := inferInstanceAs (Decidable (_ ≠ _))

theorem not_has_zero (k : Key) : ¬ Has 0 k := by cases k <;> decide

theorem has_or (found : Nat) (j k : Key) : Has (found ||| k.bit) j ↔ j = k ∨ Has found j := by
  have hbits : ∀ j k : Key, k.bit &&& j.bit ≠ 0 ↔ j = k := by
    intro j k
    cases j <;> cases k <;> decide
  unfold Has
  rw [Nat.and_or_distrib_right, ne_eq, Nat.or_eq_zero_iff, not_and_or, or_comm]
  exact or_congr_left (hbits j k)

theorem or_lt {found : Nat} (h : found < 16) (k : Key) : found ||| k.bit < 16 := by
  have hbit : k.bit < 2 ^ 4 := by cases k <;> decide
  exact Nat.or_lt_two_pow (n := 4) h hbit

theorem foundAll_iff {found : Nat} (h : found < 16) : found = foundAll ↔ ∀ k, Has found k := by
  have hfour : ∀ found < 16, found = foundAll ↔ Has found .memTotal ∧ Has found .memAvailable ∧
      Has found .swapTotal ∧ Has found .swapFree := by decide
  rw [hfour found h]
  constructor
  · rintro ⟨htotal, havailable, hswapTotal, hswapFree⟩ k
    cases k
    · exact htotal
    · exact havailable
    · exact hswapTotal
    · exact hswapFree
  · exact fun hall => ⟨hall _, hall _, hall _, hall _⟩

def mark (line : Bytes) (k : Key) : Option (Key × Option UInt64) :=
  match readKib line k.name with
  | .other => none
  | .malformed => some (k, none)
  | .value v => some (k, some v)

def readKey (line : Bytes) : Option (Key × Option UInt64) := Key.all.findSome? (mark line)

theorem mark_eq_none_iff (line : Bytes) (k : Key) :
    mark line k = none ↔ startsWith line k.start = false := by
  unfold mark readKib Key.start
  cases startsWith line (k.name ++ ascii ":") with
  | false => exact iff_of_true rfl rfl
  | true =>
    refine iff_of_false ?_ (by decide)
    generalize sscanf kibFormat (line.drop (k.name.length + 1)) = fields
    simp only [if_true]
    split
    · rename_i heq
      split at heq
      · split_ifs at heq
      · cases heq
    · exact Option.some_ne_none _
    · exact Option.some_ne_none _

theorem mark_ne {line : Bytes} {j k : Key} (hk : startsWith line k.start = true) (h : j ≠ k) :
    mark line j = none := by
  rw [mark_eq_none_iff]
  apply not_startsWith _ hk
  · exact fun hpre => h (Key.start_inj hpre).symm
  · exact fun hpre => h (Key.start_inj hpre)

theorem readKey_of_start {line : Bytes} {k : Key} (h : startsWith line k.start = true) :
    readKey line = mark line k := by
  have hother : ∀ j, j ≠ k → mark line j = none := fun j hj => mark_ne h hj
  unfold readKey Key.all
  cases k <;> simp [List.findSome?, hother] <;> cases mark line _ <;> rfl

theorem memoryLoop_cons (line : Bytes) (lines : List Bytes) (s : MemorySample) (found : Nat) :
    memoryLoop (line :: lines) s found =
      match readKey line with
      | some (_, none) => none
      | some (k, some v) =>
        if k = .swapFree ∧ found ||| k.bit = foundAll then
          some (k.store v s, found ||| k.bit, false)
        else memoryLoop lines (k.store v s) (found ||| k.bit)
      | none =>
        if found = foundAll then some (s, found, false) else memoryLoop lines s found := by
  rw [memoryLoop, readKey]
  simp only [Key.all, List.findSome?, mark, Key.name]
  cases readKib line (ascii "MemTotal") with
  | malformed => rfl
  | value v =>
    simp only [reduceCtorEq, false_and, if_false]
    rfl
  | other =>
    dsimp only
    cases readKib line (ascii "MemAvailable") with
    | malformed => rfl
    | value v =>
      simp only [reduceCtorEq, false_and, if_false]
      rfl
    | other =>
      dsimp only
      cases readKib line (ascii "SwapTotal") with
      | malformed => rfl
      | value v =>
        simp only [reduceCtorEq, false_and, if_false]
        rfl
      | other =>
        dsimp only
        cases readKib line (ascii "SwapFree") with
        | malformed => rfl
        | value v =>
          simp only [true_and]
          rfl
        | other => rfl

def entries (lines : List Bytes) : List (Key × Option UInt64) := lines.filterMap readKey

theorem entries_cons_none {line : Bytes} (h : readKey line = none) (lines : List Bytes) :
    entries (line :: lines) = entries lines := List.filterMap_cons_none h

theorem entries_cons_some {line : Bytes} {e : Key × Option UInt64} (h : readKey line = some e)
    (lines : List Bytes) : entries (line :: lines) = e :: entries lines :=
  List.filterMap_cons_some h

theorem memoryLoop_absent {k : Key} {lines : List Bytes} {s s' : MemorySample} {found found' : Nat}
    {atEnd : Bool} (h : memoryLoop lines s found = some (s', found', atEnd))
    (hk : k ∉ (entries lines).map Prod.fst) :
    k.get s' = k.get s ∧ (Has found' k ↔ Has found k) := by
  induction lines generalizing s found with
  | nil =>
    cases Option.some.inj h
    exact ⟨rfl, Iff.rfl⟩
  | cons line lines ih =>
    rw [memoryLoop_cons] at h
    cases hread : readKey line with
    | none =>
      rw [entries_cons_none hread] at hk
      rw [hread] at h
      dsimp only at h
      split_ifs at h
      · cases Option.some.inj h
        exact ⟨rfl, Iff.rfl⟩
      · exact ih h hk
    | some e =>
      obtain ⟨j, value⟩ := e
      rw [entries_cons_some hread, List.map_cons, List.mem_cons, not_or] at hk
      rw [hread] at h
      cases value with
      | none => cases h
      | some v =>
        have hkept : k.get (j.store v s) = k.get s := Key.get_store_ne hk.1 v s
        have hbit : Has (found ||| j.bit) k ↔ Has found k := by simp [has_or, hk.1]
        dsimp only at h
        split_ifs at h
        · cases Option.some.inj h
          exact ⟨hkept, hbit⟩
        · obtain ⟨hget, hhas⟩ := ih h hk.2
          exact ⟨hget.trans hkept, hhas.trans hbit⟩

theorem memoryLoop_lt {lines : List Bytes} {s s' : MemorySample} {found found' : Nat}
    {atEnd : Bool} (h : memoryLoop lines s found = some (s', found', atEnd)) (hlt : found < 16) :
    found' < 16 := by
  induction lines generalizing s found with
  | nil =>
    cases Option.some.inj h
    exact hlt
  | cons line lines ih =>
    rw [memoryLoop_cons] at h
    split at h
    · cases h
    · split_ifs at h
      · cases Option.some.inj h
        exact or_lt hlt _
      · exact ih h (or_lt hlt _)
    · split_ifs at h
      · cases Option.some.inj h
        exact hlt
      · exact ih h hlt

/-- Where no key comes twice, the loop ends before the last line only if no key is left, so it
fails just for a malformed number, and stores the number of each key and its bit. -/
theorem memoryLoop_spec {lines : List Bytes} (s : MemorySample) {found : Nat} (hlt : found < 16)
    (honce : ((entries lines).map Prod.fst).Nodup)
    (hnew : ∀ k ∈ (entries lines).map Prod.fst, ¬ Has found k) :
    match memoryLoop lines s found with
    | none => ∃ k, (k, none) ∈ entries lines
    | some (s', found', _) =>
      ∀ k value, (k, value) ∈ entries lines → value = some (k.get s') ∧ Has found' k := by
  induction lines generalizing s found with
  | nil => simp [memoryLoop, entries]
  | cons line lines ih =>
    rw [memoryLoop_cons]
    cases hread : readKey line with
    | none =>
      rw [entries_cons_none hread] at honce hnew ⊢
      dsimp only
      split_ifs with hfull
      · have hall := (foundAll_iff hlt).mp hfull
        intro k value hmem
        exact absurd (hall k) (hnew k (List.mem_map_of_mem hmem))
      · exact ih s hlt honce hnew
    | some e =>
      obtain ⟨k, value⟩ := e
      rw [entries_cons_some hread] at honce hnew ⊢
      rw [List.map_cons, List.nodup_cons] at honce
      cases value with
      | none => exact ⟨k, List.mem_cons_self⟩
      | some v =>
        have hrest : ∀ j ∈ (entries lines).map Prod.fst, ¬ Has (found ||| k.bit) j := by
          intro j hj
          rw [has_or, not_or]
          refine ⟨?_, hnew j (List.mem_cons_of_mem _ hj)⟩
          rintro rfl
          exact honce.1 hj
        dsimp only
        split_ifs with hfull
        · have hall := (foundAll_iff (or_lt hlt k)).mp hfull.2
          intro j value hmem
          rcases List.mem_cons.mp hmem with heq | hmem
          · cases heq
            exact ⟨by rw [Key.get_store], hall _⟩
          · exact absurd (hall j) (hrest j (List.mem_map_of_mem hmem))
        · have ih := ih (k.store v s) (or_lt hlt k) honce.2 hrest
          cases hloop : memoryLoop lines (k.store v s) (found ||| k.bit) with
          | none =>
            rw [hloop] at ih
            obtain ⟨j, hj⟩ := ih
            exact ⟨j, List.mem_cons_of_mem _ hj⟩
          | some r =>
            obtain ⟨s', found', atEnd⟩ := r
            rw [hloop] at ih
            intro j value hmem
            rcases List.mem_cons.mp hmem with heq | hmem
            · cases heq
              obtain ⟨hget, hhas⟩ := memoryLoop_absent hloop honce.1
              exact ⟨by rw [hget, Key.get_store], hhas.mpr ((has_or _ _ _).mpr (Or.inl rfl))⟩
            · exact ih j value hmem

theorem mark_some {line : Bytes} {j k : Key} {value : Option UInt64}
    (h : mark line j = some (k, value)) : k = j ∧ startsWith line k.start = true := by
  have hstart : startsWith line j.start ≠ false := fun hfalse => by
    rw [(mark_eq_none_iff line j).mpr hfalse] at h
    cases h
  have hkey : k = j := by
    unfold mark at h
    split at h
    · cases h
    · cases h
      rfl
    · cases h
      rfl
  exact ⟨hkey, by rw [hkey]; simpa using hstart⟩

theorem start_of_readKey {line : Bytes} {k : Key} {value : Option UInt64}
    (h : readKey line = some (k, value)) : startsWith line k.start = true := by
  obtain ⟨j, -, hj⟩ := List.exists_of_findSome?_eq_some h
  exact (mark_some hj).2

theorem startsWith_cstr {line key : Bytes} (h : startsWith (cstr line) key = true) :
    startsWith line key = true :=
  List.isPrefixOf_iff_prefix.mpr ((List.isPrefixOf_iff_prefix.mp h).trans (List.takeWhile_prefix _))

theorem start_of_mem_entries {lines : List Bytes} {k : Key}
    (h : k ∈ (entries (lines.map cstr)).map Prod.fst) :
    ∃ line ∈ lines, startsWith line k.start = true := by
  obtain ⟨⟨k', value⟩, he, rfl⟩ := List.mem_map.mp h
  obtain ⟨buffer, hbuffer, hread⟩ := List.mem_filterMap.mp he
  obtain ⟨line, hline, rfl⟩ := List.mem_map.mp hbuffer
  exact ⟨line, hline, startsWith_cstr (start_of_readKey hread)⟩

theorem entries_nodup {lines : List Bytes}
    (h : ∀ k : Key, (lines.filter fun line => startsWith line k.start).length ≤ 1) :
    ((entries (lines.map cstr)).map Prod.fst).Nodup := by
  induction lines with
  | nil => exact List.nodup_nil
  | cons line lines ih =>
    have hsub : ∀ k : Key, (lines.filter fun line => startsWith line k.start).length ≤ 1 :=
      fun k => ((List.sublist_cons_self line lines).filter _).length_le.trans (h k)
    rw [List.map_cons]
    cases hread : readKey (cstr line) with
    | none =>
      rw [entries_cons_none hread]
      exact ih hsub
    | some e =>
      obtain ⟨k, value⟩ := e
      rw [entries_cons_some hread, List.map_cons, List.nodup_cons]
      refine ⟨fun hmem => ?_, ih hsub⟩
      obtain ⟨line', hline', hstart'⟩ := start_of_mem_entries hmem
      have hstart := startsWith_cstr (start_of_readKey hread)
      have hone := h k
      rw [List.filter_cons, if_pos hstart, List.length_cons] at hone
      have hpos : 0 < (lines.filter fun line => startsWith line k.start).length :=
        List.length_pos_of_mem (List.mem_filter.mpr ⟨hline', hstart'⟩)
      omega

theorem readKib_newline (line : Bytes) (k : Key) :
    readKib (line ++ [10]) k.name = readKib line k.name := by
  have hten : 10 ∉ k.start := by cases k <;> decide
  unfold readKib
  rw [show startsWith (line ++ [10]) (k.name ++ ascii ":") = startsWith line (k.name ++ ascii ":")
    from startsWith_newline hten]
  cases hstart : startsWith line (k.name ++ ascii ":") with
  | false => rfl
  | true =>
    have hlen : k.name.length + 1 ≤ line.length := by
      simpa [ascii] using (List.isPrefixOf_iff_prefix.mp hstart).length_le
    rw [List.drop_append_of_le_length hlen, kibFormat,
      sscanf_newline .u64 (sscanf_newline (.word 2) (sscanf_newline .char fun _ => rfl))]

theorem readKey_linewise : Linewise readKey none where
  newline line _ := by
    unfold readKey
    refine congrArg (List.findSome? · Key.all) (funext fun k => ?_)
    unfold mark
    rw [readKib_newline]
  empty := by decide

theorem entries_joinLines {lines : List Bytes} (h : Fitting meminfoLineMax lines) :
    entries ((fgetsAll meminfoLineMax ⟨joinLines lines, false⟩).map cstr) =
      entries (lines.map cstr) := by
  rw [fgetsAll_joinLines (by decide) h]
  exact filterMap_pieces readKey_linewise h

theorem memoryParse_absent {lines : List Bytes} (h : Fitting meminfoLineMax lines) {k : Key}
    (hk : ∀ line ∈ lines, startsWith line k.start = false) :
    memoryParse ⟨joinLines lines, false⟩ = none := by
  have hmissing : k ∉ (entries ((fgetsAll meminfoLineMax ⟨joinLines lines, false⟩).map cstr)).map
      Prod.fst := by
    rw [entries_joinLines h]
    intro hmem
    obtain ⟨line, hline, hstart⟩ := start_of_mem_entries hmem
    rw [hk line hline] at hstart
    cases hstart
  unfold memoryParse
  cases hloop : memoryLoop ((fgetsAll meminfoLineMax ⟨joinLines lines, false⟩).map cstr)
    ⟨0, 0, 0, 0⟩ 0 with
  | none => rfl
  | some r =>
    obtain ⟨s, found, atEnd⟩ := r
    have hnot : found ≠ foundAll := by
      rintro hall
      have hhas := (foundAll_iff (memoryLoop_lt hloop (by decide))).mp hall k
      exact not_has_zero k ((memoryLoop_absent hloop hmissing).2.mp hhas)
    dsimp only
    rw [if_pos (Or.inr (Or.inl hnot))]

structure Entry where
  number : Written
  gap : Bytes
  unit : Bytes
  trail : Bytes
  plain : number.Plain
  gap_blank : ∀ b ∈ gap, isspace b = true
  unit_ne : unit ≠ []
  unit_word : ∀ b ∈ unit, isspace b = false ∧ b ≠ 0
  apart : Stops isdigit (gap ++ unit)
  trail_blank : ∀ b ∈ trail, isspace b = true

namespace Entry

variable (e : Entry)

def line (k : Key) : Bytes :=
  k.start ++ (e.number.text ++ (e.gap ++ (e.unit ++ e.trail)))

def value : Option UInt64 := if e.unit = ascii "kB" then some e.number.unsigned else none

theorem cstr_line (k : Key) : cstr (e.line k) = e.line k := by
  refine cstr_eq_self ?_
  have hstart : 0 ∉ k.start := by cases k <;> decide
  have hblank : ∀ {s : Bytes}, (∀ b ∈ s, isspace b = true) → 0 ∉ s := fun h h0 => by
    cases h 0 h0
  have hdigits : 0 ∉ e.number.digits := fun h0 => by cases e.number.digit 0 h0
  simp only [line, Written.text, e.plain.1, List.nil_append, List.mem_append, not_or]
  exact ⟨hstart, ⟨hblank e.number.blank, hdigits⟩, hblank e.gap_blank,
    fun h0 => (e.unit_word 0 h0).2 rfl, hblank e.trail_blank⟩

theorem mark_line (k : Key) : mark (e.line k) k = some (k, e.value) := by
  have hstart : startsWith (e.line k) (k.name ++ ascii ":") = true := startsWith_append k.start _
  have hdrop : (e.line k).drop (k.name.length + 1) =
      e.number.text ++ (e.gap ++ (e.unit ++ e.trail)) := List.drop_left' (by simp [Key.start, ascii])
  have hstops : Stops isdigit (e.gap ++ (e.unit ++ e.trail)) := by
    have hapart := e.apart
    rw [← List.append_assoc]
    obtain ⟨b, s, hs⟩ := List.exists_cons_of_ne_nil
      (show e.gap ++ e.unit ≠ [] by simp [e.unit_ne])
    rw [hs] at hapart ⊢
    exact stops_cons.mpr (stops_cons.mp hapart)
  have hscan : sscanf kibFormat (e.number.text ++ (e.gap ++ (e.unit ++ e.trail))) =
      .u64 e.number.unsigned :: .word (e.unit.take 2) ::
        ((e.unit.drop 2).head?.map Scanned.char).toList := by
    rw [kibFormat, sscanf_number e.number hstops,
      sscanf_unit e.gap_blank e.unit_ne (fun b hb => (e.unit_word b hb).1) e.trail_blank]
  unfold mark readKib
  rw [hstart, hdrop, hscan, value]
  cases hrest : e.unit.drop 2 with
  | nil =>
    have htake : e.unit.take 2 = e.unit :=
      List.take_of_length_le (List.drop_eq_nil_iff.mp hrest)
    rw [htake]
    by_cases hunit : e.unit = ascii "kB"
    · simp [hunit]
    · simp [hunit]
  | cons c s =>
    have hunit : e.unit ≠ ascii "kB" := by
      intro heq
      rw [heq] at hrest
      cases hrest
    rw [if_neg hunit]
    rfl

end Entry

/-- Lines that a buffer can hold, of which each key starts exactly one. -/
structure Meminfo (lines : List Bytes) (entry : Key → Entry) : Prop where
  fitting : Fitting meminfoLineMax lines
  once : ∀ k : Key, (lines.filter fun line => startsWith line k.start) = [(entry k).line k]

/-- All units are kB, there is memory, and not more of it is free than there is. -/
structure Valid (entry : Key → Entry) : Prop where
  units : ∀ k, (entry k).unit = ascii "kB"
  total : 0 < (entry .memTotal).number.value
  available : (entry .memAvailable).number.value ≤ (entry .memTotal).number.value
  swapFree : (entry .swapFree).number.value ≤ (entry .swapTotal).number.value

namespace Meminfo

variable {lines : List Bytes} {entry : Key → Entry}

theorem mem_entries (h : Meminfo lines entry) (k : Key) :
    (k, (entry k).value) ∈ entries (lines.map cstr) := by
  have hline : (entry k).line k ∈ lines := by
    have hmem : (entry k).line k ∈ lines.filter fun line => startsWith line k.start := by
      rw [h.once k]
      exact List.mem_singleton_self _
    exact List.mem_of_mem_filter hmem
  refine List.mem_filterMap.mpr ⟨(entry k).line k, List.mem_map.mpr ⟨_, hline, ?_⟩, ?_⟩
  · exact (entry k).cstr_line k
  · have hread : readKey ((entry k).line k) = mark ((entry k).line k) k :=
      readKey_of_start (startsWith_append k.start _)
    rw [hread, (entry k).mark_line k]

theorem nodup (h : Meminfo lines entry) : ((entries (lines.map cstr)).map Prod.fst).Nodup :=
  entries_nodup fun k => by rw [h.once k, List.length_singleton]

theorem loop (h : Meminfo lines entry) :
    match memoryLoop ((fgetsAll meminfoLineMax ⟨joinLines lines, false⟩).map cstr)
        ⟨0, 0, 0, 0⟩ 0 with
    | none => ∃ k, (entry k).unit ≠ ascii "kB"
    | some (s, found, _) => found = foundAll ∧
        ∀ k, (entry k).unit = ascii "kB" ∧ k.get s = (entry k).number.unsigned := by
  have hentries := entries_joinLines h.fitting
  have hspec := @memoryLoop_spec
    ((fgetsAll meminfoLineMax ⟨joinLines lines, false⟩).map cstr) ⟨0, 0, 0, 0⟩ 0 (by decide)
    (by rw [hentries]; exact h.nodup) fun k _ => not_has_zero k
  rw [hentries] at hspec
  cases hloop : memoryLoop ((fgetsAll meminfoLineMax ⟨joinLines lines, false⟩).map cstr)
    ⟨0, 0, 0, 0⟩ 0 with
  | none =>
    rw [hloop] at hspec
    obtain ⟨k, hk⟩ := hspec
    have hnone : (entry k).value = none := by
      have hkey := List.inj_on_of_nodup_map h.nodup hk (h.mem_entries k) rfl
      exact (congrArg Prod.snd hkey).symm
    refine ⟨k, fun hunit => ?_⟩
    rw [Entry.value, if_pos hunit] at hnone
    cases hnone
  | some r =>
    obtain ⟨s, found, atEnd⟩ := r
    rw [hloop] at hspec
    refine ⟨?_, fun k => ?_⟩
    · exact (foundAll_iff (memoryLoop_lt hloop (by decide))).mpr fun k =>
        (hspec k _ (h.mem_entries k)).2
    · have hvalue := (hspec k _ (h.mem_entries k)).1
      unfold Entry.value at hvalue
      split_ifs at hvalue with hunit
      exact ⟨hunit, (Option.some.inj hvalue).symm⟩

theorem memoryParse (h : Meminfo lines entry) :
    match Memory.memoryParse ⟨joinLines lines, false⟩ with
    | none => ¬ Valid entry
    | some s => Valid entry ∧ ∀ k, (k.get s).toNat = (entry k).number.value := by
  have hloop := h.loop
  unfold Memory.memoryParse
  cases hrun : memoryLoop ((fgetsAll meminfoLineMax ⟨joinLines lines, false⟩).map cstr)
    ⟨0, 0, 0, 0⟩ 0 with
  | none =>
    rw [hrun] at hloop
    obtain ⟨k, hk⟩ := hloop
    exact fun hvalid => hk (hvalid.units k)
  | some r =>
    obtain ⟨s, found, atEnd⟩ := r
    rw [hrun] at hloop
    obtain ⟨hfound, hkeys⟩ := hloop
    have hvalue : ∀ k, (k.get s).toNat = (entry k).number.value := fun k => by
      rw [(hkeys k).2, (entry k).plain.toNat]
    have htotal := hvalue .memTotal
    have havailable := hvalue .memAvailable
    have hswapTotal := hvalue .swapTotal
    have hswapFree := hvalue .swapFree
    simp only [Key.get] at htotal havailable hswapTotal hswapFree
    have hzero : s.totalKib = 0 ↔ s.totalKib.toNat = 0 := by
      rw [← UInt64.toNat_inj, UInt64.toNat_zero]
    simp only [Bool.false_eq_true, and_false, false_or, hfound, ne_eq, not_true, hzero,
      UInt64.lt_iff_toNat_lt, htotal, havailable, hswapTotal, hswapFree]
    split_ifs with hbad
    · rintro ⟨-, hpos, hle, hfree⟩
      omega
    · exact ⟨⟨fun k => (hkeys k).1, by omega, by omega, by omega⟩, hvalue⟩

theorem perm {lines' : List Bytes} (h : Meminfo lines entry) (hperm : lines'.Perm lines) :
    Meminfo lines' entry where
  fitting line hline := h.fitting line (hperm.mem_iff.mp hline)
  once k := by
    have := hperm.filter fun line => startsWith line k.start
    rw [h.once k] at this
    exact List.perm_singleton.mp this

end Meminfo

theorem memoryUsage_exact {stream : Stream} {s : MemorySample} (h : memoryParse stream = some s) :
    ∃ usage, memoryUsage s = some usage ∧
      usage.usedKib.toNat + s.availableKib.toNat = s.totalKib.toNat ∧
      usage.swapUsedKib.toNat + s.swapFreeKib.toNat = s.swapTotalKib.toNat := by
  have hsome := memoryUsage_of_memoryParse h
  unfold memoryUsage at hsome ⊢
  split_ifs at hsome ⊢ with hbad
  · cases hsome
  · simp only [not_or, UInt64.not_lt] at hbad
    obtain ⟨-, havailable, hswap⟩ := hbad
    refine ⟨_, rfl, ?_, ?_⟩
    · rw [UInt64.toNat_sub_of_le _ _ havailable]
      exact Nat.sub_add_cancel (UInt64.le_iff_toNat_le.mp havailable)
    · rw [UInt64.toNat_sub_of_le _ _ hswap]
      exact Nat.sub_add_cancel (UInt64.le_iff_toNat_le.mp hswap)

/-- The four keys are read whatever surrounds them, in any order. -/
theorem memoryParse_lines :
    (∀ lines entry, Meminfo lines entry →
      ((memoryParse ⟨joinLines lines, false⟩).isSome = true ↔ Valid entry) ∧
      (∀ s, memoryParse ⟨joinLines lines, false⟩ = some s →
        ∀ k, (k.get s).toNat = (entry k).number.value) ∧
      ∀ lines', lines'.Perm lines →
        memoryParse ⟨joinLines lines', false⟩ = memoryParse ⟨joinLines lines, false⟩) ∧
    (∀ lines (k : Key), Fitting meminfoLineMax lines →
      (∀ line ∈ lines, startsWith line k.start = false) →
        memoryParse ⟨joinLines lines, false⟩ = none) ∧
    ∀ stream s, memoryParse stream = some s → ∃ usage, memoryUsage s = some usage ∧
      usage.usedKib.toNat + s.availableKib.toNat = s.totalKib.toNat ∧
      usage.swapUsedKib.toNat + s.swapFreeKib.toNat = s.swapTotalKib.toNat := by
  refine ⟨fun lines entry h => ⟨?_, ?_, ?_⟩, fun lines k h hk => memoryParse_absent h hk,
    fun stream s h => memoryUsage_exact h⟩
  · have hparse := h.memoryParse
    cases hs : memoryParse ⟨joinLines lines, false⟩ with
    | none =>
      rw [hs] at hparse
      exact iff_of_false Bool.false_ne_true hparse
    | some s =>
      rw [hs] at hparse
      exact iff_of_true rfl hparse.1
  · intro s hs
    have hparse := h.memoryParse
    rw [hs] at hparse
    exact hparse.2
  · intro lines' hperm
    have hparse := h.memoryParse
    have hparse' := (h.perm hperm).memoryParse
    cases hs : memoryParse ⟨joinLines lines, false⟩ with
    | none =>
      rw [hs] at hparse
      cases hs' : memoryParse ⟨joinLines lines', false⟩ with
      | none => rfl
      | some s' =>
        rw [hs'] at hparse'
        exact absurd hparse'.1 hparse
    | some s =>
      rw [hs] at hparse
      cases hs' : memoryParse ⟨joinLines lines', false⟩ with
      | none =>
        rw [hs'] at hparse'
        exact absurd hparse.1 hparse'
      | some s' =>
        rw [hs'] at hparse'
        rw [Key.ext fun k => UInt64.toNat_inj.mp ((hparse'.2 k).trans (hparse.2 k).symm)]

theorem one_space : ∀ b ∈ ([32] : Bytes), isspace b = true := List.forall_mem_singleton.mpr rfl

theorem unit_word_kB : ∀ b ∈ ascii "kB", isspace b = false ∧ b ≠ 0 := by decide +kernel

def sampleEntry (v : Nat) (hv : v < 2 ^ 64) : Entry where
  number := Written.ofDecimal [32] v one_space
  gap := [32]
  unit := ascii "kB"
  trail := []
  plain := Written.plain_ofDecimal _ hv
  gap_blank := one_space
  unit_ne := List.cons_ne_nil _ _
  unit_word := unit_word_kB
  apart := stops_cons.mpr rfl
  trail_blank := List.forall_mem_nil _

def sampleEntries : Key → Entry
  | .memTotal => sampleEntry 100 (by decide)
  | .memAvailable => sampleEntry 40 (by decide)
  | .swapTotal => sampleEntry 5 (by decide)
  | .swapFree => sampleEntry 5 (by decide)

def sampleLines : List Bytes :=
  [ascii "SwapFree: 5 kB", ascii "SwapTotal: 5 kB", ascii "MemTotalHuge: lots",
    ascii "MemAvailable: 40 kB", ascii "MemTotal: 100 kB", []]

theorem sampleLines_meminfo : Meminfo sampleLines sampleEntries where
  fitting := by
    unfold Fitting
    decide +kernel
  once k := by cases k <;> decide +kernel

theorem sampleLines_parsed : (memoryParse ⟨joinLines sampleLines, false⟩).isSome = true := by
  refine (memoryParse_lines.1 sampleLines sampleEntries sampleLines_meminfo).1.mpr ?_
  exact ⟨fun k => by cases k <;> rfl, by decide +kernel, by decide +kernel, by decide +kernel⟩

end RookieTop.MemoryLines
