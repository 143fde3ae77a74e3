import RookieTop.CLib.Printf
import RookieTop.ProcessList

/-! The search of the explorer: part of a name in any case, or part of a pid. -/
namespace RookieTop.ProcessQuery

open CLib ProcessList

/-- The inner loop: `right` runs out while `left` still agrees with it. -/
def agrees : Bytes → Bytes → Bool
  | _, [] => true
  | [], _ :: _ => false
  | l :: left, r :: right => tolower l == tolower r && agrees left right

def containsFrom (query : Bytes) : Bytes → Bool
  | [] => false
  | b :: text => agrees (b :: text) query || containsFrom query text

def containsCaseInsensitive (text query : Bytes) : Bool :=
  query.isEmpty || containsFrom query text

/-- `strstr(text, part) != NULL`. -/
def strstr (text part : Bytes) : Bool :=
  part.isPrefixOf text ||
    match text with
    | [] => false
    | _ :: text => strstr text part

def processQueryMatches (row : ProcessRow) (query : Bytes) : Bool :=
  query.isEmpty || containsCaseInsensitive row.name query || strstr (formatInt row.pid) query

/-- The loop of the filter: kept rows are moved down over the ones that were read. -/
def filterLoop (query : Bytes) : Nat → Nat → Nat → List ProcessRow → List ProcessRow × Nat
  | 0, _, write, rows => (rows, write)
  | left + 1, read, write, rows =>
    match rows[read]? with
    | none => (rows, write)
    | some row =>
      if processQueryMatches row query then
        filterLoop query left (read + 1) (write + 1) (rows.set write row)
      else filterLoop query left (read + 1) write rows

def processQueryFilter (rows : List ProcessRow) (query : Bytes) : List ProcessRow × Nat :=
  if query.isEmpty then (rows, rows.length) else filterLoop query rows.length 0 0 rows

/-- Reading is never behind writing, so every row is read before it is overwritten. -/
theorem filterLoop_eq (query : Bytes) (left read write : Nat) (rows : List ProcessRow)
    (hread : read + left = rows.length) (hwrite : write ≤ read) :
    (filterLoop query left read write rows).2 ≤ rows.length ∧
      (filterLoop query left read write rows).1.take (filterLoop query left read write rows).2 =
        rows.take write ++
          (rows.drop read).filter fun row => processQueryMatches row query := by
  induction left generalizing read write rows with
  | zero =>
    have hdrop : rows.drop read = [] := List.drop_eq_nil_of_le (by omega)
    simp [filterLoop, hdrop]
    omega
  | succ left ih =>
    have hlt : read < rows.length := by omega
    have hget : rows[read]? = some rows[read] := List.getElem?_eq_getElem hlt
    have hdrop : rows.drop read = rows[read] :: rows.drop (read + 1) :=
      List.drop_eq_getElem_cons hlt
    rw [filterLoop, hget]
    dsimp only
    split
    · rename_i hmatch
      have hset := ih (read + 1) (write + 1) (rows.set write rows[read])
        (by rw [List.length_set]; omega) (by omega)
      rw [List.length_set] at hset
      refine ⟨hset.1, ?_⟩
      rw [hset.2, hdrop, List.filter_cons_of_pos (by simpa using hmatch),
        List.drop_set_of_lt (by omega)]
      have htake : (rows.set write rows[read]).take (write + 1) =
          rows.take write ++ [rows[read]] := by
        rw [List.take_succ_eq_append_getElem (by rw [List.length_set]; omega),
          List.take_set_of_le (le_refl write), List.getElem_set_self]
      rw [htake, List.append_assoc, List.singleton_append]
    · rename_i hmatch
      have hskip := ih (read + 1) write rows (by omega) (by omega)
      refine ⟨hskip.1, ?_⟩
      rw [hskip.2, hdrop, List.filter_cons_of_neg (by simpa using hmatch)]

theorem filterLoop_length (query : Bytes) (left read write : Nat) (rows : List ProcessRow) :
    (filterLoop query left read write rows).1.length = rows.length := by
  induction left generalizing read write rows with
  | zero => rfl
  | succ left ih =>
    unfold filterLoop
    split
    · rfl
    · split
      · rw [ih, List.length_set]
      · exact ih _ _ _

/-- The rows kept are the matching ones, in their order. -/
theorem processQueryFilter_take (rows : List ProcessRow) (query : Bytes) :
    (processQueryFilter rows query).1.take (processQueryFilter rows query).2 =
      rows.filter fun row => processQueryMatches row query := by
  unfold processQueryFilter
  split
  · rename_i hempty
    have hall : ∀ row ∈ rows, processQueryMatches row query = true := by
      intro row _
      simp [processQueryMatches, hempty]
    simp [List.filter_eq_self.mpr hall]
  · simpa using (filterLoop_eq query rows.length 0 0 rows (by omega) (le_refl 0)).2

def kept (rows : List ProcessRow) (query : Bytes) : List ProcessRow :=
  (processQueryFilter rows query).1.take (processQueryFilter rows query).2

theorem kept_eq_filter (rows : List ProcessRow) (query : Bytes) :
    kept rows query = rows.filter fun row => processQueryMatches row query :=
  processQueryFilter_take rows query

theorem processQueryFilter_le (rows : List ProcessRow) (query : Bytes) :
    (processQueryFilter rows query).2 ≤ (processQueryFilter rows query).1.length := by
  unfold processQueryFilter
  split
  · exact le_refl _
  · have hloop := (filterLoop_eq query rows.length 0 0 rows (by omega) (le_refl 0)).1
    rwa [filterLoop_length]

/-- The query is part of the name in any case, or part of the pid. -/
def Matches (query : Bytes) (row : ProcessRow) : Prop :=
  query = [] ∨ query.map tolower <:+: row.name.map tolower ∨ query <:+: formatInt row.pid

instance (query : Bytes) : DecidablePred (Matches query) := fun row => by
  unfold Matches
  infer_instance

theorem agrees_prefix (text query : Bytes) :
    agrees text query = true ↔ query.map tolower <+: text.map tolower := by
  induction query generalizing text with
  | nil => simp [agrees]
  | cons b query ih =>
    cases text with
    | nil => simp [agrees]
    | cons a text =>
      rw [agrees, Bool.and_eq_true, ih text, beq_iff_eq, List.map_cons, List.map_cons,
        List.cons_prefix_cons]
      exact and_congr_left' eq_comm

theorem containsFrom_iff {query : Bytes} (hquery : query ≠ []) (text : Bytes) :
    containsFrom query text = true ↔ query.map tolower <:+: text.map tolower := by
  induction text with
  | nil => simp [containsFrom, hquery]
  | cons a text ih =>
    rw [containsFrom, Bool.or_eq_true, agrees_prefix, ih, List.map_cons, List.infix_cons_iff]

theorem strstr_iff (text part : Bytes) : strstr text part = true ↔ part <:+: text := by
  induction text with
  | nil => simp [strstr]
  | cons a text ih =>
    rw [strstr, Bool.or_eq_true, ih, List.isPrefixOf_iff_prefix, List.infix_cons_iff]

theorem processQueryMatches_iff (row : ProcessRow) (query : Bytes) :
    processQueryMatches row query = true ↔ Matches query row := by
  unfold processQueryMatches containsCaseInsensitive Matches
  by_cases hquery : query = []
  · simp [hquery]
  · have hempty : query.isEmpty = false := by simpa using hquery
    rw [hempty, Bool.or_eq_true, Bool.false_or, Bool.false_or, containsFrom_iff hquery,
      strstr_iff]
    simp [hquery]

theorem Matches.mono {part query : Bytes} {row : ProcessRow} (hpart : part <:+: query)
    (h : Matches query row) : Matches part row := by
  rcases h with rfl | hname | hpid
  · exact Or.inl (List.eq_nil_of_infix_nil hpart)
  · exact Or.inr (Or.inl ((hpart.map tolower).trans hname))
  · exact Or.inr (Or.inr (hpart.trans hpid))

/-- The front of the array after the call holds the rows that match, in their order. A
search that goes on from a part of the query misses none of them. -/
theorem kept_matching (rows : List ProcessRow) (query : Bytes) :
    kept rows query = rows.filter (fun row => decide (Matches query row)) ∧
      (kept rows query).length = (processQueryFilter rows query).2 ∧
      ∀ part, part <:+: query →
        (∀ row ∈ kept rows query, row ∈ kept rows part) ∧
          kept (kept rows part) query = kept rows query := by
  have hkept : ∀ rows query,
      kept rows query = rows.filter fun row => decide (Matches query row) := by
    intro rows query
    rw [kept_eq_filter]
    apply List.filter_congr
    intro row _
    rw [Bool.eq_iff_iff, processQueryMatches_iff, decide_eq_true_iff]
  refine ⟨hkept rows query, ?_, fun part hpart => ⟨fun row hrow => ?_, ?_⟩⟩
  · exact List.length_take_of_le (processQueryFilter_le rows query)
  · rw [hkept, List.mem_filter, decide_eq_true_iff] at hrow ⊢
    exact ⟨hrow.1, hrow.2.mono hpart⟩
  · rw [hkept, hkept, hkept, List.filter_filter]
    apply List.filter_congr
    intro row _
    rw [Bool.eq_iff_iff, Bool.and_eq_true, decide_eq_true_iff, decide_eq_true_iff]
    exact and_iff_left_of_imp (Matches.mono hpart)

end RookieTop.ProcessQuery
