import RookieTop.CLib.Lines
import RookieTop.CLib.Written
import RookieTop.Network
import RookieTop.Outputs

/-! The lines of `/proc/net/dev` as they may be written, and the sums over a text of them. -/
namespace RookieTop.NetworkLines

open CLib Trace Sys Network Outputs

/-- A line as its first colon divides it: a name between blanks, and the rest. -/
def Headed (line name rest : Bytes) : Prop :=
  ∃ lead trail : Bytes, line = lead ++ (name ++ trail) ++ 58 :: rest ∧
    (∀ b ∈ lead ++ trail, isblank b = true) ∧ 58 ∉ name ∧ name ≠ [] ∧
    Stops isblank name ∧ Stops isblank name.reverse

theorem Headed.cut {line name rest : Bytes} (h : Headed line name rest) :
    ∃ colon, strchr line 58 = some colon ∧
      ((line.take colon).dropWhile isblank).rdropWhile isblank = name ∧
      line.drop (colon + 1) = rest := by
  obtain ⟨lead, trail, rfl, hblank, hcolon, hne, hstart, hend⟩ := h
  have hlead : ∀ b ∈ lead, isblank b = true := fun b hb => hblank b (List.mem_append_left _ hb)
  have htrail : ∀ b ∈ trail, isblank b = true := fun b hb => hblank b (List.mem_append_right _ hb)
  have hhead : 58 ∉ lead ++ (name ++ trail) := by
    simp only [List.mem_append, not_or]
    exact ⟨fun h => absurd (hlead 58 h) (by decide), hcolon,
      fun h => absurd (htrail 58 h) (by decide)⟩
  have hstop : Stops isblank (name ++ trail) := by
    obtain ⟨b, s, rfl⟩ := List.exists_cons_of_ne_nil hne
    exact stops_cons.mpr (stops_cons.mp hstart)
  refine ⟨_, strchr_append_cons hhead, ?_, ?_⟩
  · rw [List.take_left, dropWhile_append_stop hlead hstop, List.rdropWhile, List.reverse_append,
      dropWhile_append_stop (by simpa using htrail) hend, List.reverse_reverse]
  · rw [List.drop_length_add_append]
    rfl

theorem headed_of_strchr {line : Bytes} {colon : Nat} (h : strchr line 58 = some colon)
    (hne : ((line.take colon).dropWhile isblank).rdropWhile isblank ≠ []) :
    Headed line (((line.take colon).dropWhile isblank).rdropWhile isblank)
      (line.drop (colon + 1)) := by
  have hmem : 58 ∈ line := by
    by_contra hnot
    rw [strchr_eq_none hnot] at h
    cases h
  obtain ⟨w, s, rfl, hw⟩ := List.eq_append_cons_of_mem hmem
  rw [strchr_append_cons hw] at h
  cases Option.some.inj h
  rw [List.take_left] at hne ⊢
  have hdrop : (w ++ 58 :: s).drop (w.length + 1) = s := by
    rw [List.drop_length_add_append]
    rfl
  have hsplit : w.dropWhile isblank = (w.dropWhile isblank).rdropWhile isblank ++
      (w.dropWhile isblank).rtakeWhile isblank := List.rdropWhile_append_rtakeWhile.symm
  refine ⟨w.takeWhile isblank, (w.dropWhile isblank).rtakeWhile isblank, ?_, ?_, ?_, hne, ?_, ?_⟩
  · rw [hdrop, ← hsplit, List.takeWhile_append_dropWhile]
  · intro b hb
    rcases List.mem_append.mp hb with hb | hb
    · exact List.mem_takeWhile_imp hb
    · exact List.mem_rtakeWhile_imp hb
  · exact fun hmem => hw ((List.dropWhile_suffix _).subset ((List.rdropWhile_prefix _ _).subset hmem))
  · have hstart := stops_dropWhile isblank w
    obtain ⟨b, t, ht⟩ := List.exists_cons_of_ne_nil hne
    rw [hsplit, ht] at hstart
    rw [ht]
    exact stops_cons.mpr (stops_cons.mp hstart)
  · rw [List.rdropWhile, List.reverse_reverse]
    exact stops_dropWhile isblank _

theorem networkParseLine_headed {line name rest : Bytes} (h : Headed line name rest) {cap : Nat}
    (hcap : name.length < cap) :
    networkParseLine line cap =
      if (sscanf (u64Fields 16) rest).length < 9 then none
      else some ⟨name, field (sscanf (u64Fields 16) rest) 0,
        field (sscanf (u64Fields 16) rest) 8⟩ := by
  obtain ⟨colon, hchr, hname, hrest⟩ := h.cut
  obtain ⟨-, -, -, -, -, hne, -⟩ := h
  have hfits : ¬ (name.length = 0 ∨ cap ≤ name.length) := by
    rw [not_or, List.length_eq_zero_iff]
    exact ⟨hne, Nat.not_le_of_lt hcap⟩
  simp only [networkParseLine, hchr, hname, hrest, if_neg hfits]

structure Interface where
  lead : Bytes
  name : Bytes
  counters : List Written
  lead_blank : ∀ b ∈ lead, isblank b = true
  name_ne : name ≠ []
  name_short : name.length < interfaceNameMax
  name_clean : ∀ b ∈ name, isblank b = false ∧ b ≠ 58 ∧ b ≠ 10 ∧ b ≠ 0
  blank : ∀ w ∈ counters, ∀ b ∈ w.blanks, isblank b = true
  apart : ∀ w ∈ counters.tail, w.blanks ≠ []
  plain : ∀ w ∈ counters, w.Plain
  nine : 9 ≤ counters.length

namespace Interface

variable (i : Interface)

def text : Bytes := i.lead ++ i.name ++ 58 :: writtenText i.counters

def counter (n : Nat) : Nat := (i.counters[n]?.map Written.value).getD 0

theorem joined : Joined i.counters := fun w hw => Or.inl (i.apart w hw)

theorem headed (e : Bytes) : Headed (i.text ++ e) i.name (writtenText i.counters ++ e) := by
  refine ⟨i.lead, [], ?_, ?_, fun h => (i.name_clean 58 h).2.1 rfl, i.name_ne, ?_, ?_⟩
  · simp [text]
  · simpa using i.lead_blank
  · exact fun b hb => (i.name_clean b (List.mem_of_mem_head? hb)).1
  · exact fun b hb => (i.name_clean b (List.mem_reverse.mp (List.mem_of_mem_head? hb))).1

theorem text_clean : 10 ∉ i.text ∧ 0 ∉ i.text := by
  have hcounters : ∀ b ∈ writtenText i.counters, isblank b = true ∨ isdigit b = true := by
    intro b hb
    obtain ⟨w, hw, hb⟩ := List.mem_flatMap.mp hb
    rw [Written.text, (i.plain w hw).1, List.nil_append] at hb
    exact (List.mem_append.mp hb).imp (i.blank w hw b) (w.digit b)
  have key : ∀ b ∈ i.text, isblank b = true ∨ b ∈ i.name ∨ b = 58 ∨ isdigit b = true := by
    intro b hb
    simp only [text, List.mem_append, List.mem_cons] at hb
    rcases hb with (hb | hb) | rfl | hb
    · exact Or.inl (i.lead_blank b hb)
    · exact Or.inr (Or.inl hb)
    · exact Or.inr (Or.inr (Or.inl rfl))
    · rcases hcounters b hb with hb | hb
      · exact Or.inl hb
      · exact Or.inr (Or.inr (Or.inr hb))
  constructor
  · intro h
    rcases key _ h with hb | hb | hb | hb
    · cases hb
    · exact (i.name_clean _ hb).2.2.1 rfl
    · cases hb
    · cases hb
  · intro h
    rcases key _ h with hb | hb | hb | hb
    · cases hb
    · exact (i.name_clean _ hb).2.2.2 rfl
    · cases hb
    · cases hb

theorem counter_lt (n : Nat) : i.counter n < 2 ^ 64 := by
  unfold counter
  cases h : i.counters[n]? with
  | none => decide
  | some w => exact (i.plain w (List.mem_of_getElem? h)).2

def parsed : NetworkLine := ⟨i.name, UInt64.ofNat (i.counter 0), UInt64.ofNat (i.counter 8)⟩

theorem parsed_toNat : i.parsed.rxBytes.toNat = i.counter 0 ∧ i.parsed.txBytes.toNat = i.counter 8 :=
  ⟨UInt64.toNat_ofNat_of_lt' (i.counter_lt 0), UInt64.toNat_ofNat_of_lt' (i.counter_lt 8)⟩

theorem field_scan {n : Nat} (hn : n < 9) :
    field ((i.counters.take 16).map fun w => .u64 w.unsigned) n = UInt64.ofNat (i.counter n) := by
  have hlen : n < i.counters.length := Nat.lt_of_lt_of_le hn i.nine
  have hplain := (i.plain _ (List.getElem_mem hlen)).unsigned
  simp [field, counter, List.getElem?_take_of_lt (show n < 16 by omega), hlen, hplain]

theorem parse {e : Bytes} (he : e = [] ∨ e = [10]) :
    networkParseLine (i.text ++ e) interfaceNameMax = some i.parsed := by
  have hend : numeral? e = none ∧ Stops isdigit e := by
    rcases he with rfl | rfl
    · exact ⟨rfl, stops_nil⟩
    · exact ⟨by decide, stops_cons.mpr rfl⟩
  have hscan : sscanf (u64Fields 16) (writtenText i.counters ++ e) =
      (i.counters.take 16).map fun w => .u64 w.unsigned := by
    rw [sscanf_writtenText 16 i.joined hend.2, sscanf_none hend.1, List.append_nil]
  have hnine : ¬ ((i.counters.take 16).map fun w => Scanned.u64 w.unsigned).length < 9 := by
    have := i.nine
    rw [List.length_map, List.length_take]
    omega
  rw [networkParseLine_headed (i.headed e) i.name_short, hscan, if_neg hnine,
    i.field_scan (show 0 < 9 by omega), i.field_scan (show 8 < 9 by omega), parsed]

end Interface

/-- The title lines are told from interfaces by having no colon. -/
structure Header where
  text : Bytes
  no_colon : 58 ∉ text
  one_line : 10 ∉ text

inductive Row where
  | header (h : Header)
  | interface (i : Interface)

namespace Row

def text : Row → Bytes
  | .header h => h.text
  | .interface i => i.text

def interface? : Row → Option Interface
  | .header _ => none
  | .interface i => some i

end Row

/-- A content of `/proc/net/dev`. Names may come twice. -/
structure Table where
  rows : List Row
  short : ∀ i, .interface i ∈ rows → i.text.length ≤ 510

namespace Table

variable (t : Table)

def text : Bytes := joinLines (t.rows.map Row.text)

def interfaces : List Interface :=
  (t.rows.filterMap Row.interface?).filter fun i => i.name ≠ ascii "lo"

def rxSum : Nat := (t.interfaces.map fun i => i.counter 0).sum
def txSum : Nat := (t.interfaces.map fun i => i.counter 8).sum

end Table

def parses (text : Bytes) : List NetworkLine :=
  ((fgetsAll netLineMax ⟨text, false⟩).map cstr).filterMap
    fun line => networkParseLine line interfaceNameMax

theorem filterMap_no_colon {pieces : List Bytes} (h : ∀ p ∈ pieces, 58 ∉ p) :
    ((pieces.map cstr).filterMap fun line => networkParseLine line interfaceNameMax) = [] := by
  rw [List.filterMap_eq_nil_iff]
  intro line hline
  obtain ⟨p, hp, rfl⟩ := List.mem_map.mp hline
  have hnone : strchr (cstr p) 58 = none :=
    strchr_eq_none fun hmem => h p hp ((List.takeWhile_prefix _).subset hmem)
  simp only [networkParseLine, hnone]

theorem parses_header (h : Header) (s : Bytes) : parses (h.text ++ 10 :: s) = parses s := by
  obtain ⟨pieces, hpieces, hpart⟩ :=
    @fgetsAll_line netLineMax (by decide) h.text s false h.one_line
  have hcolon : ∀ p ∈ pieces, 58 ∉ p := fun p hp hmem => by
    have := (hpart p hp).subset hmem
    simp [h.no_colon] at this
  rw [parses, hpieces, List.map_append, List.filterMap_append, filterMap_no_colon hcolon,
    List.nil_append, parses]

theorem parses_interface (i : Interface) (hshort : i.text.length ≤ 510) (s : Bytes) :
    parses (i.text ++ 10 :: s) = i.parsed :: parses s := by
  have hclean := i.text_clean
  have hlen : i.text.length + 1 < netLineMax := by
    unfold netLineMax
    omega
  have hcstr : cstr (i.text ++ [10]) = i.text ++ [10] := cstr_eq_self (by simpa using hclean.2)
  rw [parses, fgetsAll_newline hclean.1 hlen, List.map_cons, hcstr]
  simp only [List.filterMap_cons, i.parse (Or.inr rfl), parses]

theorem parses_row (r : Row) (hshort : ∀ i, r = .interface i → i.text.length ≤ 510) (s : Bytes) :
    parses (r.text ++ 10 :: s) = (r.interface?.map Interface.parsed).toList ++ parses s := by
  cases r with
  | header h => exact parses_header h s
  | interface i => exact parses_interface i (hshort i rfl) s

theorem parses_last (r : Row) (hshort : ∀ i, r = .interface i → i.text.length ≤ 510) :
    parses r.text = (r.interface?.map Interface.parsed).toList := by
  cases r with
  | header h =>
    refine filterMap_no_colon fun p hp hmem => ?_
    exact h.no_colon ((infix_of_mem_fgetsAll hp).subset hmem)
  | interface i =>
    have hclean := i.text_clean
    have hlen : i.text.length < netLineMax := Nat.lt_of_le_of_lt (hshort i rfl) (by decide)
    have hne : i.text ≠ [] := by simp [Interface.text]
    have hparse := i.parse (Or.inl rfl)
    rw [List.append_nil] at hparse
    rw [parses, Row.text, fgetsAll_of_fgets (fgets_last hclean.1 hlen hne), List.map_cons,
      cstr_eq_self hclean.2]
    simp only [List.filterMap_cons, hparse]
    rfl

theorem parses_rows {rows : List Row} (h : ∀ i, .interface i ∈ rows → i.text.length ≤ 510) :
    parses (joinLines (rows.map Row.text)) =
      (rows.filterMap Row.interface?).map Interface.parsed := by
  induction rows with
  | nil => rfl
  | cons r rows ih =>
    have hshort : ∀ i, r = .interface i → i.text.length ≤ 510 := fun i hi => h i (by simp [hi])
    have ih := ih fun i hi => h i (List.mem_cons_of_mem _ hi)
    have hrow : ((r :: rows).filterMap Row.interface?).map Interface.parsed =
        (r.interface?.map Interface.parsed).toList ++
          (rows.filterMap Row.interface?).map Interface.parsed := by
      cases hr : r.interface? <;> simp [hr]
    rw [hrow]
    cases rows with
    | nil =>
      rw [List.map_singleton, joinLines, List.intercalate_singleton, parses_last r hshort]
      simp
    | cons next rows =>
      rw [List.map_cons, joinLines_cons _ (by simp), parses_row r hshort, ih]

theorem counted_text (t : Table) :
    counted ((fgetsAll netLineMax ⟨t.text, false⟩).map cstr) =
      t.interfaces.map Interface.parsed := by
  have hparses := parses_rows t.short
  rw [parses] at hparses
  rw [counted, Table.text, hparses, List.filter_map]
  rfl

theorem networkParse_text (t : Table) :
    networkParse ⟨t.text, false⟩ =
      if t.rxSum < 2 ^ 64 ∧ t.txSum < 2 ^ 64 then
        some ⟨UInt64.ofNat t.rxSum, UInt64.ofNat t.txSum⟩
      else none := by
  have hrx : rxTotal (t.interfaces.map Interface.parsed) = t.rxSum := by
    rw [rxTotal, Table.rxSum, List.map_map]
    exact congrArg List.sum (List.map_congr_left fun i _ => i.parsed_toNat.1)
  have htx : txTotal (t.interfaces.map Interface.parsed) = t.txSum := by
    rw [txTotal, Table.txSum, List.map_map]
    exact congrArg List.sum (List.map_congr_left fun i _ => i.parsed_toNat.2)
  rw [networkParse_eq _ rfl, counted_text]
  simp only [hrx, htx]

section Order

variable {t t' : Table}

theorem Table.interfaces_perm (h : t'.rows.Perm t.rows) : t'.interfaces.Perm t.interfaces :=
  (h.filterMap _).filter _

theorem Table.rxSum_perm (h : t'.rows.Perm t.rows) : t'.rxSum = t.rxSum :=
  ((Table.interfaces_perm h).map _).sum_eq

theorem Table.txSum_perm (h : t'.rows.Perm t.rows) : t'.txSum = t.txSum :=
  ((Table.interfaces_perm h).map _).sum_eq

end Order

def Reads (env : Env) (n : Nat) (t : Table) : Prop :=
  (readFile env .netDev).value n = some (⟨t.text, false⟩, true)

theorem networkReadInto_text {env : Env} {n : Nat} {t : Table} (h : Reads env n t)
    (unset : LineOut) (out : NetworkSample) :
    (networkReadInto env unset out).value n =
      if t.rxSum < 2 ^ 64 ∧ t.txSum < 2 ^ 64 then
        (some (), ⟨UInt64.ofNat t.rxSum, UInt64.ofNat t.txSum⟩)
      else (none, out) := by
  have hread : (networkRead env).value n = networkParse ⟨t.text, false⟩ := by
    unfold networkRead
    rw [Calls.value_bind, h]
    rfl
  rw [networkReadInto_value, hread, networkParse_text]
  by_cases hfits : t.rxSum < 2 ^ 64 ∧ t.txSum < 2 ^ 64
  · rw [if_pos hfits, if_pos hfits]
  · rw [if_neg hfits, if_neg hfits]

/-- A reading stores the exact sums where both fit, and returns an error and stores nothing
just where one of them does not. The order of the lines is of no matter. -/
theorem networkReadInto_sums (env : Env) (n : Nat) (t : Table) (h : Reads env n t)
    (unset : LineOut) (out : NetworkSample) :
    (t.rxSum < 2 ^ 64 ∧ t.txSum < 2 ^ 64 → ∃ sample,
      (networkReadInto env unset out).value n = (some (), sample) ∧
        sample.rxBytes.toNat = t.rxSum ∧ sample.txBytes.toNat = t.txSum) ∧
    ((networkReadInto env unset out).value n = (none, out) ↔
      2 ^ 64 ≤ t.rxSum ∨ 2 ^ 64 ≤ t.txSum) ∧
    ∀ env' n' t', Reads env' n' t' → t'.rows.Perm t.rows →
      (networkReadInto env' unset out).value n' = (networkReadInto env unset out).value n := by
  refine ⟨fun hfits => ?_, ?_, fun env' n' t' h' hperm => ?_⟩
  · rw [networkReadInto_text h, if_pos hfits]
    exact ⟨_, rfl, UInt64.toNat_ofNat_of_lt' hfits.1, UInt64.toNat_ofNat_of_lt' hfits.2⟩
  · rw [networkReadInto_text h, ← not_lt, ← not_lt, ← not_and_or]
    by_cases hfits : t.rxSum < 2 ^ 64 ∧ t.txSum < 2 ^ 64
    · rw [if_pos hfits]
      exact iff_of_false (fun h => by cases h) (not_not.mpr hfits)
    · rw [if_neg hfits]
      exact iff_of_true rfl hfits
  · rw [networkReadInto_text h', networkReadInto_text h, Table.rxSum_perm hperm,
      Table.txSum_perm hperm]

theorem one_space :
    (∀ b ∈ ([32] : Bytes), isblank b = true) ∧ ∀ b ∈ ([32] : Bytes), isspace b = true :=
  ⟨List.forall_mem_singleton.mpr rfl, List.forall_mem_singleton.mpr rfl⟩

def sampleCounters (rx tx : Nat) : List Written :=
  [rx, 0, 0, 0, 0, 0, 0, 0, tx].map fun v => Written.ofDecimal [32] v one_space.2

theorem sampleCounters_plain {rx tx : Nat} (h : rx < 2 ^ 64 ∧ tx < 2 ^ 64) :
    ∀ w ∈ sampleCounters rx tx, w.Plain := by
  intro w hw
  obtain ⟨v, hv, rfl⟩ := List.mem_map.mp hw
  refine Written.plain_ofDecimal _ ?_
  simp only [List.mem_cons, List.not_mem_nil, or_false] at hv
  omega

theorem sampleCounters_blanks {rx tx : Nat} : ∀ w ∈ sampleCounters rx tx, w.blanks = [32] := by
  intro w hw
  obtain ⟨v, -, rfl⟩ := List.mem_map.mp hw
  rfl

def sampleInterface (name : Bytes) (rx tx : Nat) (hcounters : rx < 2 ^ 64 ∧ tx < 2 ^ 64)
    (hne : name ≠ []) (hshort : name.length < interfaceNameMax)
    (hclean : ∀ b ∈ name, isblank b = false ∧ b ≠ 58 ∧ b ≠ 10 ∧ b ≠ 0) : Interface where
  lead := [32]
  name := name
  counters := sampleCounters rx tx
  lead_blank := one_space.1
  name_ne := hne
  name_short := hshort
  name_clean := hclean
  blank w hw := by
    rw [sampleCounters_blanks w hw]
    exact one_space.1
  apart w hw := by
    rw [sampleCounters_blanks w (List.mem_of_mem_tail hw)]
    exact List.cons_ne_nil _ _
  plain := sampleCounters_plain hcounters
  nine := le_of_eq rfl

def sampleTable : Table where
  rows := [.header ⟨ascii "Inter-|   Receive", by decide, by decide⟩,
    .interface (sampleInterface (ascii "lo") 7 7 (by decide) (by decide) (by decide)
      (by decide +kernel)),
    .interface (sampleInterface (ascii "eth0") 100 200 (by decide) (by decide) (by decide)
      (by decide +kernel))]
  short := by
    intro i hi
    simp only [List.mem_cons, reduceCtorEq, Row.interface.injEq, List.not_mem_nil, or_false,
      false_or] at hi
    rcases hi with rfl | rfl <;> decide

def sampleEnv : Env where
  __ := Env.idle
  opens _ _ := true
  content _ _ _ := ⟨sampleTable.text, false⟩

theorem networkReadInto_sample :
    ∃ sample, (networkReadInto sampleEnv ⟨[], 0, 0⟩ ⟨5, 5⟩).value 0 = (some (), sample) ∧
      sample.rxBytes.toNat = 100 ∧ sample.txBytes.toNat = 200 :=
  (networkReadInto_sums sampleEnv 0 sampleTable rfl ⟨[], 0, 0⟩ ⟨5, 5⟩).1 (by decide)

end RookieTop.NetworkLines
