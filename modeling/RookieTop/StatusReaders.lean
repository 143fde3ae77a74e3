import RookieTop.CLib.Lines
import RookieTop.CLib.Written
import RookieTop.Process
import RookieTop.ProcessList

/-! The two readers of `/proc/<pid>/status`, that of the overview and that of the explorer, on
one text. -/
namespace RookieTop.StatusReaders

open CLib

open Process (ProcessInfo processParseStatus statusLineMax processNameMax rssFormat)

open ProcessList (ProcessRow parseStatus keyName keyState keyThreads keyVmRss unitKb lineMaxLocal
  processListNameMax countFormat kibFormat parseStatusLine emptyRow)

structure StatusText where
  lines : List Bytes
  fitting : Fitting statusLineMax lines

namespace StatusText

variable (t : StatusText)

def stream : Stream := ⟨joinLines t.lines, false⟩

def strings : List Bytes := t.lines.map cstr

theorem newline_notMem {s : Bytes} (h : s ∈ t.strings) : 10 ∉ s := by
  obtain ⟨line, hline, rfl⟩ := List.mem_map.mp h
  exact fun hten => (t.fitting line hline).1 ((List.takeWhile_prefix _).subset hten)

end StatusText

def nameOf (s : Bytes) : Option Bytes :=
  if startsWith s keyName then
    some (((s.drop 5).dropWhile isblank).takeWhile fun b => !([13, 10] : Bytes).contains b)
  else none

def rssOf (s : Bytes) : Option UInt64 :=
  if startsWith s keyVmRss then
    match sscanf kibFormat (s.drop 6) with
    | .u64 rss :: _ => some rss
    | _ => none
  else none

def names (strings : List Bytes) : List Bytes := strings.filterMap nameOf

def rsses (strings : List Bytes) : List UInt64 := strings.filterMap rssOf

/-- A line that is not one of the four, or has a value of the right form. -/
structure Fine (s : Bytes) : Prop where
  name : ∀ name, nameOf s = some name → name ≠ [] ∧ name.length < processListNameMax
  state : startsWith s keyState = true → ∃ b ∈ s.drop 6, isblank b = false
  threads : startsWith s keyThreads = true → ∃ (w : Written) (trail : Bytes),
    s.drop 8 = w.text ++ trail ∧ ∀ b ∈ trail, isspace b = true
  rss : startsWith s keyVmRss = true → ∃ (w : Written) (gap trail : Bytes),
    s.drop 6 = w.text ++ (gap ++ (unitKb ++ trail)) ∧ (∀ b ∈ gap, isspace b = true) ∧
      ∀ b ∈ trail, isspace b = true

structure Readable (t : StatusText) : Prop where
  named : names t.strings ≠ []
  fine : ∀ s ∈ t.strings, Fine s

/-- A name is nothing but white space, or the last one ends with some. -/
def Padded (t : StatusText) : Prop :=
  (∃ name ∈ names t.strings, ∀ b ∈ name, isspace b = true) ∨
    ∃ name ∈ (names t.strings).getLast?, ∃ b ∈ name.getLast?, isspace b = true

/-- What both accept they read alike, and what the explorer accepts the overview accepts. -/
def Agree (t : StatusText) : Prop :=
  ∀ pid : Int, 0 < pid →
    (∀ info row, processParseStatus t.stream pid = some info →
      parseStatus pid t.stream = some row →
        info.name = row.name ∧ info.rssKib = row.rssKib ∧
          ((∀ s ∈ t.strings, startsWith s keyVmRss = false) → row.rssKib = 0)) ∧
    ((parseStatus pid t.stream).isSome = true → (processParseStatus t.stream pid).isSome = true)

theorem take_strcspn (s reject : Bytes) :
    s.take (strcspn s reject) = s.takeWhile fun b => !reject.contains b :=
  (List.prefix_iff_eq_take.mp (List.takeWhile_prefix _)).symm

theorem sscanf_count_iff (s : Bytes) :
    (∃ v, sscanf countFormat s = [.u64 v]) ↔
      ∃ (w : Written) (trail : Bytes), s = w.text ++ trail ∧ ∀ b ∈ trail, isspace b = true := by
  constructor
  · rintro ⟨v, hv⟩
    exact exists_only_number hv
  · rintro ⟨w, trail, rfl, htrail⟩
    exact ⟨_, sscanf_only_number w htrail⟩

theorem sscanf_kib_iff (s : Bytes) :
    (∃ v, sscanf kibFormat s = [.u64 v, .word unitKb]) ↔
      ∃ (w : Written) (gap trail : Bytes), s = w.text ++ (gap ++ (unitKb ++ trail)) ∧
        (∀ b ∈ gap, isspace b = true) ∧ ∀ b ∈ trail, isspace b = true := by
  constructor
  · rintro ⟨v, hv⟩
    simp only [kibFormat, sscanf, numeral?_dropWhile] at hv
    cases hnum : numeral? s with
    | none =>
      rw [hnum] at hv
      cases hv
    | some m =>
      rw [hnum, List.cons.injEq] at hv
      obtain ⟨w, hs, -⟩ := Written.exists_text hnum
      obtain ⟨gap, trail, hrest, hgap, htrail⟩ := exists_unit rfl hv.2
      exact ⟨w, gap, trail, by rw [hs, hrest], hgap, htrail⟩
  · rintro ⟨w, gap, trail, rfl, hgap, htrail⟩
    have hstops : Stops isdigit (gap ++ (unitKb ++ trail)) := by
      by_cases hnil : gap = []
      · rw [hnil]
        exact stops_cons.mpr rfl
      · exact stops_isdigit_of_space hgap hnil
    refine ⟨w.unsigned, ?_⟩
    have hunit : ∀ b ∈ unitKb, isspace b = false := by decide +kernel
    rw [kibFormat, sscanf_number w hstops, sscanf_unit hgap (show unitKb ≠ [] by decide) hunit htrail]
    rfl

section Values

variable (row : ProcessRow)

theorem parseName_eq (value : Bytes) :
    let name := (value.dropWhile isblank).takeWhile fun b => !([13, 10] : Bytes).contains b
    ProcessList.parseName row value =
      if name ≠ [] ∧ name.length < processListNameMax then .parsed { row with name := name }
      else .malformed := by
  unfold ProcessList.parseName
  dsimp only
  rw [take_strcspn, strcspn, ← ite_not]
  simp only [not_or, List.length_eq_zero_iff, Nat.not_le, ne_eq]

theorem parseState_eq (value : Bytes) (hvalue : 10 ∉ value) :
    (∃ b ∈ value, isblank b = false) ∧
        (∃ state, ProcessList.parseState row value = .parsed { row with state := state }) ∨
      (¬ ∃ b ∈ value, isblank b = false) ∧ ProcessList.parseState row value = .malformed := by
  unfold ProcessList.parseState
  cases hdrop : value.dropWhile isblank with
  | nil =>
    refine Or.inr ⟨?_, rfl⟩
    rintro ⟨b, hb, hblank⟩
    rw [List.dropWhile_eq_nil_iff.mp hdrop b hb] at hblank
    cases hblank
  | cons b rest =>
    have hmem : b ∈ value := (List.dropWhile_suffix _).subset (hdrop ▸ List.mem_cons_self)
    have hblank := stops_dropWhile isblank value
    rw [hdrop, stops_cons] at hblank
    refine Or.inl ⟨⟨b, hmem, hblank⟩, b, ?_⟩
    have hne : b ≠ 10 := fun h => hvalue (h ▸ hmem)
    exact if_neg hne

theorem parseThreads_eq (value : Bytes) :
    (∃ v, sscanf countFormat value = [.u64 v]) ∧
        (∃ threads, ProcessList.parseThreads row value = .parsed { row with threads := threads }) ∨
      (¬ ∃ v, sscanf countFormat value = [.u64 v]) ∧
        ProcessList.parseThreads row value = .malformed := by
  unfold ProcessList.parseThreads
  by_cases h : ∃ v, sscanf countFormat value = [.u64 v]
  · obtain ⟨v, hv⟩ := h
    rw [hv]
    exact Or.inl ⟨⟨v, rfl⟩, v, rfl⟩
  · refine Or.inr ⟨h, ?_⟩
    split
    · rename_i v heq
      exact absurd ⟨v, heq⟩ h
    · rfl

theorem parseVmRss_eq (value : Bytes) :
    (∃ v, sscanf kibFormat value = [.u64 v, .word unitKb] ∧
        ProcessList.parseVmRss row value = .parsed { row with rssKib := v }) ∨
      (¬ ∃ v, sscanf kibFormat value = [.u64 v, .word unitKb]) ∧
        ProcessList.parseVmRss row value = .malformed := by
  unfold ProcessList.parseVmRss
  by_cases h : ∃ v, sscanf kibFormat value = [.u64 v, .word unitKb]
  · obtain ⟨v, hv⟩ := h
    rw [hv]
    exact Or.inl ⟨v, rfl, if_pos rfl⟩
  · refine Or.inr ⟨h, ?_⟩
    split
    · rename_i v unit heq
      have hunit : unit ≠ unitKb := fun hunit => h ⟨v, hunit ▸ heq⟩
      exact if_neg hunit
    · rfl

end Values

theorem isSome_nameOf (s : Bytes) : (nameOf s).isSome = startsWith s keyName := by
  unfold nameOf
  cases startsWith s keyName <;> rfl

theorem fine_of_other {s : Bytes} (hname : startsWith s keyName = false)
    (hstate : startsWith s keyState = false) (hthreads : startsWith s keyThreads = false)
    (hrss : startsWith s keyVmRss = false) : Fine s where
  name name h := by simp [nameOf, hname] at h
  state h := by simp [hstate] at h
  threads h := by simp [hthreads] at h
  rss h := by simp [hrss] at h

theorem explorer_step (row : ProcessRow) (found : Bool) {s : Bytes} (hs : 10 ∉ s) :
    (Fine s ∧ ∃ row', ProcessList.statusStep (row, found) s =
        some (row', found || (nameOf s).isSome) ∧
      row'.name = (nameOf s).getD row.name ∧ row'.rssKib = (rssOf s).getD row.rssKib) ∨
    ¬ Fine s ∧ ProcessList.statusStep (row, found) s = none := by
  rw [isSome_nameOf]
  unfold ProcessList.statusStep parseStatusLine
  by_cases hname : startsWith s keyName = true
  · have hstate := not_startsWith keyState hname (by decide) (by decide)
    have hthreads := not_startsWith keyThreads hname (by decide) (by decide)
    have hrss := not_startsWith keyVmRss hname (by decide) (by decide)
    have hnameOf : nameOf s = some (((s.drop 5).dropWhile isblank).takeWhile
      fun b => !([13, 10] : Bytes).contains b) := if_pos hname
    have hrssOf : rssOf s = none := if_neg (by simp [hrss])
    rw [if_pos hname, hrssOf, parseName_eq, hnameOf]
    split_ifs with hgood
    · refine Or.inl ⟨⟨?_, by simp [hstate], by simp [hthreads], by simp [hrss]⟩,
        _, rfl, rfl, rfl⟩
      intro name heq
      cases Option.some.inj (hnameOf.symm.trans heq)
      exact hgood
    · exact Or.inr ⟨fun hfine => hgood (hfine.name _ hnameOf), rfl⟩
  have hnameOf : nameOf s = none := if_neg hname
  rw [if_neg hname, hnameOf]
  rw [Bool.not_eq_true] at hname
  by_cases hstate : startsWith s keyState = true
  · have hthreads := not_startsWith keyThreads hstate (by decide) (by decide)
    have hrss := not_startsWith keyVmRss hstate (by decide) (by decide)
    have hrssOf : rssOf s = none := if_neg (by simp [hrss])
    rw [if_pos hstate, hrssOf]
    rcases parseState_eq row (s.drop 6) (fun h => hs (List.mem_of_mem_drop h)) with
      ⟨hgood, state, hparse⟩ | ⟨hbad, hparse⟩
    · rw [hparse]
      exact Or.inl ⟨⟨by simp [hnameOf], fun _ => hgood, by simp [hthreads], by simp [hrss]⟩,
        _, rfl, rfl, rfl⟩
    · rw [hparse]
      exact Or.inr ⟨fun hfine => hbad (hfine.state hstate), rfl⟩
  rw [if_neg hstate]
  rw [Bool.not_eq_true] at hstate
  by_cases hthreads : startsWith s keyThreads = true
  · have hrss := not_startsWith keyVmRss hthreads (by decide) (by decide)
    have hrssOf : rssOf s = none := if_neg (by simp [hrss])
    rw [if_pos hthreads, hrssOf]
    rcases parseThreads_eq row (s.drop 8) with ⟨hgood, threads, hparse⟩ | ⟨hbad, hparse⟩
    · rw [hparse]
      exact Or.inl ⟨⟨by simp [hnameOf], by simp [hstate],
        fun _ => (sscanf_count_iff _).mp hgood, by simp [hrss]⟩, _, rfl, rfl, rfl⟩
    · rw [hparse]
      exact Or.inr ⟨fun hfine => hbad ((sscanf_count_iff _).mpr (hfine.threads hthreads)), rfl⟩
  rw [if_neg hthreads]
  rw [Bool.not_eq_true] at hthreads
  by_cases hrss : startsWith s keyVmRss = true
  · rw [if_pos hrss]
    rcases parseVmRss_eq row (s.drop 6) with ⟨rss, hscan, hparse⟩ | ⟨hbad, hparse⟩
    · have hrssOf : rssOf s = some rss := by rw [rssOf, if_pos hrss, hscan]
      rw [hparse, hrssOf]
      exact Or.inl ⟨⟨by simp [hnameOf], by simp [hstate], by simp [hthreads],
        fun _ => (sscanf_kib_iff _).mp ⟨rss, hscan⟩⟩, _, rfl, rfl, rfl⟩
    · rw [hparse]
      exact Or.inr ⟨fun hfine => hbad ((sscanf_kib_iff _).mpr (hfine.rss hrss)), rfl⟩
  · rw [if_neg hrss]
    have hrssOf : rssOf s = none := if_neg hrss
    rw [Bool.not_eq_true] at hrss
    rw [hrssOf]
    exact Or.inl ⟨fine_of_other hname hstate hthreads hrss, row, by simp [hname], rfl, rfl⟩

theorem overview_step (info : ProcessInfo) (found : Bool) {s : Bytes} (h : Fine s) :
    Process.statusStep (info, found) s =
      match nameOf s with
      | some name =>
        if name.rdropWhile isspace = [] then none
        else some ({ info with name := name.rdropWhile isspace }, true)
      | none => some ({ info with rssKib := (rssOf s).getD info.rssKib }, found) := by
  unfold Process.statusStep
  by_cases hname : startsWith s keyName = true
  · have hnameOf : nameOf s = some (((s.drop 5).dropWhile isblank).takeWhile
      fun b => !([13, 10] : Bytes).contains b) := if_pos hname
    have hlen := (h.name _ hnameOf).2
    rw [hnameOf]
    unfold Process.parseName
    rw [show startsWith s Process.keyName = true from hname, if_pos rfl]
    dsimp only
    rw [take_strcspn]
    have hshort := (List.rdropWhile_prefix isspace (((s.drop 5).dropWhile isblank).takeWhile
      fun b => !([13, 10] : Bytes).contains b)).length_le
    have hcap : ¬ processNameMax ≤ ((((s.drop 5).dropWhile isblank).takeWhile
        fun b => !([13, 10] : Bytes).contains b).rdropWhile isspace).length := by
      unfold processNameMax
      unfold processListNameMax at hlen
      omega
    simp only [hcap, or_false, List.length_eq_zero_iff]
    split_ifs
    · rfl
    · rfl
  · have hnameOf : nameOf s = none := if_neg hname
    rw [hnameOf]
    unfold Process.parseName
    rw [if_neg (show ¬ startsWith s Process.keyName = true from hname)]
    dsimp only
    unfold Process.parseRss
    by_cases hrss : startsWith s keyVmRss = true
    · obtain ⟨rss, hscan⟩ := (sscanf_kib_iff _).mpr (h.rss hrss)
      have hrssOf : rssOf s = some rss := by rw [rssOf, if_pos hrss, hscan]
      rw [if_pos (show startsWith s Process.keyVmRss = true from hrss), hrssOf,
        show sscanf rssFormat (s.drop 6) = [.u64 rss, .word unitKb] from hscan]
      rfl
    · rw [if_neg (show ¬ startsWith s Process.keyVmRss = true from hrss)]
      have hrssOf : rssOf s = none := if_neg hrss
      rw [hrssOf]
      rfl

/-! The newline at the end of a line makes no difference to either. -/

theorem startsWith_drop {line key : Bytes} (n : Nat) (h : startsWith line key = true)
    (hn : key.length = n) : (line ++ [10]).drop n = line.drop n ++ [10] :=
  List.drop_append_of_le_length (hn ▸ (List.isPrefixOf_iff_prefix.mp h).length_le)

theorem take_strcspn_newline (s : Bytes) :
    (s ++ [10]).take (strcspn (s ++ [10]) [13, 10]) = s.take (strcspn s [13, 10]) := by
  rw [take_strcspn, take_strcspn, takeWhile_newline rfl]

theorem sscanf_kib_newline (s : Bytes) : sscanf kibFormat (s ++ [10]) = sscanf kibFormat s :=
  sscanf_newline .u64 (sscanf_newline (.word 2) (sscanf_newline .char fun _ => rfl)) s

theorem sscanf_count_newline (s : Bytes) : sscanf countFormat (s ++ [10]) = sscanf countFormat s :=
  sscanf_newline .u64 (sscanf_newline .char fun _ => rfl) s

theorem parseState_newline (row : ProcessRow) (value : Bytes) :
    ProcessList.parseState row (value ++ [10]) = ProcessList.parseState row value := by
  unfold ProcessList.parseState
  rw [dropWhile_stops_newline rfl]
  cases value.dropWhile isblank with
  | nil => rfl
  | cons b value => rfl

theorem parseStatusLine_newline (row : ProcessRow) (line : Bytes) :
    parseStatusLine row (line ++ [10]) = parseStatusLine row line := by
  unfold parseStatusLine
  rw [startsWith_newline (by decide), startsWith_newline (by decide),
    startsWith_newline (by decide), startsWith_newline (by decide)]
  split_ifs with hname hstate hthreads hrss
  · rw [startsWith_drop 5 hname rfl, parseName_eq, parseName_eq,
      dropWhile_stops_newline rfl, takeWhile_newline rfl]
  · rw [startsWith_drop 6 hstate rfl, parseState_newline]
  · rw [startsWith_drop 8 hthreads rfl]
    unfold ProcessList.parseThreads
    rw [sscanf_count_newline]
  · rw [startsWith_drop 6 hrss rfl]
    unfold ProcessList.parseVmRss
    rw [sscanf_kib_newline]
  · rfl

theorem explorer_linewise (found : ProcessRow × Bool) :
    Linewise (ProcessList.statusStep found) (some found) where
  newline line _ := by
    unfold ProcessList.statusStep
    rw [parseStatusLine_newline, startsWith_newline (by decide)]
  empty := rfl

theorem overview_linewise (found : ProcessInfo × Bool) :
    Linewise (Process.statusStep found) (some found) where
  newline line _ := by
    have hname : Process.parseName (line ++ [10]) processNameMax =
        Process.parseName line processNameMax := by
      unfold Process.parseName
      rw [startsWith_newline (by decide)]
      split_ifs with hstart
      · rw [startsWith_drop 5 hstart rfl, dropWhile_stops_newline rfl]
        dsimp only
        rw [take_strcspn_newline]
      · rfl
    have hrss : Process.parseRss (line ++ [10]) = Process.parseRss line := by
      unfold Process.parseRss
      rw [startsWith_newline (by decide)]
      split_ifs with hstart
      · rw [startsWith_drop 6 hstart rfl]
        rw [show sscanf rssFormat (line.drop 6 ++ [10]) = sscanf rssFormat (line.drop 6) from
          sscanf_kib_newline _]
      · rfl
    unfold Process.statusStep
    rw [hname, hrss]
  empty := rfl

theorem last_cons {α : Type} (f : Bytes → Option α) (s : Bytes) (strings : List Bytes) (init : α) :
    ((s :: strings).filterMap f).getLast?.getD init =
      (strings.filterMap f).getLast?.getD ((f s).getD init) := by
  cases hs : f s with
  | none => rw [List.filterMap_cons_none hs, Option.getD_none]
  | some a =>
    rw [List.filterMap_cons_some hs, List.getLast?_cons]
    rfl

theorem isEmpty_cons (s : Bytes) (strings : List Bytes) :
    (!(names (s :: strings)).isEmpty) = ((nameOf s).isSome || !(names strings).isEmpty) := by
  unfold names
  cases hs : nameOf s with
  | none => rw [List.filterMap_cons_none hs]; rfl
  | some name => rw [List.filterMap_cons_some hs]; rfl

theorem explorer_loop {strings : List Bytes} (h : ∀ s ∈ strings, 10 ∉ s) (row : ProcessRow)
    (found : Bool) :
    ((∀ s ∈ strings, Fine s) ∧ ∃ row', strings.foldlM ProcessList.statusStep (row, found) =
        some (row', found || !(names strings).isEmpty) ∧
      row'.name = (names strings).getLast?.getD row.name ∧
      row'.rssKib = (rsses strings).getLast?.getD row.rssKib) ∨
    (¬ ∀ s ∈ strings, Fine s) ∧ strings.foldlM ProcessList.statusStep (row, found) = none := by
  induction strings generalizing row found with
  | nil => exact Or.inl ⟨by simp, row, by simp [names], rfl, rfl⟩
  | cons s strings ih =>
    rw [List.foldlM_cons]
    rcases explorer_step row found (h s List.mem_cons_self) with
      ⟨hfine, row', hstep, hname, hrss⟩ | ⟨hbad, hstep⟩
    · rw [hstep]
      rcases ih (fun s hs => h s (List.mem_cons_of_mem _ hs)) row'
          (found || (nameOf s).isSome) with ⟨hrest, row'', hloop, hname', hrss'⟩ | ⟨hrest, hloop⟩
      · refine Or.inl ⟨List.forall_mem_cons.mpr ⟨hfine, hrest⟩, row'', ?_, ?_, ?_⟩
        · rw [isEmpty_cons, ← Bool.or_assoc]
          exact hloop
        · rw [hname', hname]
          exact (last_cons nameOf s strings row.name).symm
        · rw [hrss', hrss]
          exact (last_cons rssOf s strings row.rssKib).symm
      · exact Or.inr ⟨fun hall => hrest (List.forall_mem_cons.mp hall).2, hloop⟩
    · rw [hstep]
      exact Or.inr ⟨fun hall => hbad (List.forall_mem_cons.mp hall).1, rfl⟩

def trimmed (name : Bytes) : Bytes := name.rdropWhile isspace

theorem overview_loop {strings : List Bytes} (h : ∀ s ∈ strings, Fine s) (info : ProcessInfo)
    (found : Bool) :
    ((∀ name ∈ names strings, trimmed name ≠ []) ∧
        ∃ info', strings.foldlM Process.statusStep (info, found) =
          some (info', found || !(names strings).isEmpty) ∧
        info'.name = ((names strings).getLast?.map trimmed).getD info.name ∧
        info'.rssKib = (rsses strings).getLast?.getD info.rssKib) ∨
    (∃ name ∈ names strings, trimmed name = []) ∧
      strings.foldlM Process.statusStep (info, found) = none := by
  induction strings generalizing info found with
  | nil => exact Or.inl ⟨by simp [names], info, by simp [names], rfl, rfl⟩
  | cons s strings ih =>
    have hfine := h s List.mem_cons_self
    have ih := ih fun s hs => h s (List.mem_cons_of_mem _ hs)
    rw [List.foldlM_cons, overview_step info found hfine]
    cases hs : nameOf s with
    | none =>
      have hnames : names (s :: strings) = names strings := List.filterMap_cons_none hs
      rw [hnames]
      rcases ih { info with rssKib := (rssOf s).getD info.rssKib } found with
        ⟨hall, info', hloop, hname, hrss⟩ | ⟨hbad, hloop⟩
      · exact Or.inl ⟨hall, info', hloop, hname,
          hrss.trans (last_cons rssOf s strings info.rssKib).symm⟩
      · exact Or.inr ⟨hbad, hloop⟩
    | some name =>
      have hnames : names (s :: strings) = name :: names strings := List.filterMap_cons_some hs
      have hrssOf : rssOf s = none := by
        have hstart : startsWith s keyName = true := by rw [← isSome_nameOf, hs]; rfl
        exact if_neg (by simp [not_startsWith keyVmRss hstart (by decide) (by decide)])
      have hrsses : rsses (s :: strings) = rsses strings := List.filterMap_cons_none hrssOf
      rw [hnames, hrsses]
      dsimp only
      by_cases htrim : name.rdropWhile isspace = []
      · rw [if_pos htrim]
        exact Or.inr ⟨⟨name, List.mem_cons_self, htrim⟩, rfl⟩
      · rw [if_neg htrim]
        rcases ih { info with name := trimmed name } true with
          ⟨hall, info', hloop, hname, hrss⟩ | ⟨⟨bad, hmem, hbad⟩, hloop⟩
        · refine Or.inl ⟨List.forall_mem_cons.mpr ⟨htrim, hall⟩, info', ?_, ?_, hrss⟩
          · refine Eq.trans hloop ?_
            simp
          · rw [hname, List.getLast?_cons]
            cases (names strings).getLast? <;> rfl
        · exact Or.inr ⟨⟨bad, List.mem_cons_of_mem _ hmem, hbad⟩, hloop⟩

section Text

variable (t : StatusText)

theorem strings_loop {State : Type} {step : State → Bytes → Option State}
    (hstep : ∀ s, Linewise (step s) (some s)) {size : Nat} (hsize : statusLineMax ≤ size)
    (init : State) :
    ((fgetsAll size t.stream).map cstr).foldlM step init = t.strings.foldlM step init := by
  have hfit : Fitting size t.lines := fun line hline =>
    ⟨(t.fitting line hline).1, Nat.lt_of_lt_of_le (t.fitting line hline).2 hsize⟩
  have hone : 1 < size := Nat.lt_of_lt_of_le (by decide) hsize
  rw [StatusText.stream, fgetsAll_joinLines hone hfit, foldlM_pieces hstep hfit]
  rfl

theorem parseStatus_text (pid : Int) :
    (Readable t ∧ ∃ row, parseStatus pid t.stream = some row ∧
      row.name = (names t.strings).getLast?.getD [] ∧
      row.rssKib = (rsses t.strings).getLast?.getD 0) ∨
    ¬ Readable t ∧ parseStatus pid t.stream = none := by
  unfold parseStatus
  rw [strings_loop t explorer_linewise (by decide)]
  rcases explorer_loop (fun s => t.newline_notMem) (emptyRow pid) false with
    ⟨hfine, row, hloop, hname, hrss⟩ | ⟨hbad, hloop⟩
  · rw [hloop]
    by_cases hnamed : names t.strings = []
    · refine Or.inr ⟨fun h => h.named hnamed, ?_⟩
      rw [hnamed]
      rfl
    · refine Or.inl ⟨⟨hnamed, hfine⟩, row, ?_, hname, hrss⟩
      have hempty : (names t.strings).isEmpty = false := by simpa using hnamed
      rw [hempty]
      rfl
  · rw [hloop]
    exact Or.inr ⟨fun h => hbad h.fine, rfl⟩

/-- Of a readable text the overview takes the last name without the white space behind it, unless
nothing is left of one of the names. -/
theorem processParseStatus_text (pid : Int) (hpid : 0 < pid) (h : Readable t) :
    ((∀ name ∈ names t.strings, trimmed name ≠ []) ∧
      ∃ info, processParseStatus t.stream pid = some info ∧
        info.name = ((names t.strings).getLast?.map trimmed).getD [] ∧
        info.rssKib = (rsses t.strings).getLast?.getD 0) ∨
    (∃ name ∈ names t.strings, trimmed name = []) ∧ processParseStatus t.stream pid = none := by
  unfold processParseStatus
  rw [if_neg (Int.not_le.mpr hpid), strings_loop t overview_linewise le_rfl]
  rcases overview_loop h.fine ⟨pid, [], 0⟩ false with ⟨hall, info, hloop, hname, hrss⟩ | ⟨hbad, hloop⟩
  · rw [hloop]
    refine Or.inl ⟨hall, info, ?_, hname, hrss⟩
    have hempty : (names t.strings).isEmpty = false := by simpa using h.named
    rw [hempty]
    rfl
  · rw [hloop]
    exact Or.inr ⟨hbad, rfl⟩

theorem trimmed_eq_nil_iff (name : Bytes) : trimmed name = [] ↔ ∀ b ∈ name, isspace b = true :=
  List.rdropWhile_eq_nil_iff

theorem trimmed_eq_self_iff (name : Bytes) :
    trimmed name = name ↔ ¬ ∃ b ∈ name.getLast?, isspace b = true := by
  unfold trimmed
  rw [List.rdropWhile_eq_self_iff]
  constructor
  · rintro h ⟨b, hb, hspace⟩
    have hne : name ≠ [] := by rintro rfl; cases hb
    rw [List.getLast?_eq_some_getLast hne, Option.mem_some_iff] at hb
    exact h hne (hb ▸ hspace)
  · intro h hne hspace
    exact h ⟨name.getLast hne, by rw [List.getLast?_eq_some_getLast hne]; rfl, hspace⟩

/-- The readers disagree just where the explorer keeps white space at the end of a name that the
overview trims. -/
theorem agree_iff : Agree t ↔ ¬ (Readable t ∧ Padded t) := by
  constructor
  · rintro hagree ⟨hread, hpadded⟩
    obtain ⟨hsame, haccepts⟩ := hagree 1 (by decide)
    rcases parseStatus_text t 1 with ⟨-, row, hrow, hname, -⟩ | ⟨hnot, -⟩
    · rcases processParseStatus_text t 1 (by decide) hread with
        ⟨hall, info, hinfo, hname', -⟩ | ⟨-, hnone⟩
      · rcases hpadded with ⟨name, hmem, hspace⟩ | ⟨name, hlast, hspace⟩
        · exact hall name hmem ((trimmed_eq_nil_iff name).mpr hspace)
        · have hnames := (hsame info row hinfo hrow).1
          rw [hname, hname', Option.mem_def.mp hlast] at hnames
          exact (trimmed_eq_self_iff name).mp hnames hspace
      · have haccepts := haccepts (by rw [hrow]; rfl)
        rw [hnone] at haccepts
        cases haccepts
    · exact hnot hread
  · intro hgood pid hpid
    rcases parseStatus_text t pid with ⟨hread, row, hrow, hname, hrss⟩ | ⟨-, hnone⟩
    · have hclean : ¬ Padded t := fun hpadded => hgood ⟨hread, hpadded⟩
      unfold Padded at hclean
      rw [not_or] at hclean
      rcases processParseStatus_text t pid hpid hread with
        ⟨-, info, hinfo, hname', hrss'⟩ | ⟨⟨name, hmem, hnil⟩, -⟩
      · refine ⟨fun info' row' hinfo' hrow' => ?_, fun _ => by rw [hinfo]; rfl⟩
        cases Option.some.inj (hinfo.symm.trans hinfo')
        cases Option.some.inj (hrow.symm.trans hrow')
        refine ⟨?_, hrss'.trans hrss.symm, fun hnone => ?_⟩
        · rw [hname', hname]
          cases hlast : (names t.strings).getLast? with
          | none => rfl
          | some name =>
            refine (trimmed_eq_self_iff name).mpr fun hspace => ?_
            exact hclean.2 ⟨name, hlast, hspace⟩
        · have hnil : rsses t.strings = [] :=
            List.filterMap_eq_nil_iff.mpr fun s hs => if_neg (by simp [hnone s hs])
          rw [hrss, hnil]
          rfl
      · exact absurd ⟨name, hmem, (trimmed_eq_nil_iff name).mp hnil⟩ hclean.1
    · refine ⟨fun info row _ hrow => ?_, fun hsome => ?_⟩
      · rw [hnone] at hrow
        cases hrow
      · rw [hnone] at hsome
        cases hsome

end Text

def paddedText : StatusText where
  lines := [ascii "Name:\tfoo ", []]
  fitting := by
    unfold Fitting
    decide +kernel

theorem paddedText_differs : ¬ Agree paddedText := by
  intro h
  have hinfo : processParseStatus paddedText.stream 1 = some ⟨1, ascii "foo", 0⟩ := by
    decide +kernel
  have hrow : parseStatus 1 paddedText.stream = some { emptyRow 1 with name := ascii "foo " } := by
    decide +kernel
  exact absurd ((h 1 (by decide)).1 _ _ hinfo hrow).1 (by decide)

end RookieTop.StatusReaders
