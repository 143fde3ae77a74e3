import RookieTop.Explorer
import RookieTop.ProcessQuery
import Mathlib.Data.Prod.Lex

/-! The orders of the explorer's table. Each comparator puts any two processes of
different pids in one order, so the table does not depend on the scan. -/
namespace RookieTop.ProcessOrder

open CLib Sys ProcessCpu ProcessList ProcessQuery Explorer

theorem comparePids_nonpos (left right : Int) : comparePids left right ≤ 0 ↔ left ≤ right := by
  unfold comparePids
  split_ifs <;> omega

theorem sort_pids {Entry : Type} {pid : Entry → Int} {cmp : Entry → Entry → Int}
    (hcmp : ∀ a b, cmp a b = comparePids (pid a) (pid b)) {entries : List Entry}
    (hpids : (entries.map pid).Nodup) (q : Qsort) :
    (q.sort cmp entries).Pairwise fun a b => pid a < pid b := by
  have hspec : Comparator cmp := by
    apply Comparator.of_key pid
    intro a b
    rw [hcmp, comparePids_nonpos]
  have hnodup := (((q.perm cmp entries).map pid).nodup_iff).mpr hpids
  have hne : (q.sort cmp entries).Pairwise fun a b => pid a ≠ pid b := List.pairwise_map.mp hnodup
  refine ((q.sorted hspec entries).and hne).imp ?_
  rintro a b ⟨hle, hpid⟩
  rw [hcmp, comparePids_nonpos] at hle
  exact lt_of_le_of_ne hle hpid

/-- The order that each key promises: the largest first for memory and CPU, and the
smaller pid first where the key does not tell two processes apart. -/
def Precedes : ProcessSort → ProcessRow → ProcessRow → Prop
  | .memory, a, b => b.rssKib < a.rssKib ∨ a.rssKib = b.rssKib ∧ a.pid < b.pid
  | .cpu, a, b => b.cpuPercent < a.cpuPercent ∨ a.cpuPercent = b.cpuPercent ∧ a.pid < b.pid
  | .pid, a, b => a.pid < b.pid
  | .name, a, b => codes a.name < codes b.name ∨ codes a.name = codes b.name ∧ a.pid < b.pid

theorem compareMemory_nonpos (a b : ProcessRow) :
    compareMemory a b ≤ 0 ↔ b.rssKib < a.rssKib ∨ a.rssKib = b.rssKib ∧ a.pid ≤ b.pid := by
  unfold compareMemory comparePid
  rw [← UInt64.toNat_inj]
  simp only [UInt64.lt_iff_toNat_lt]
  split_ifs with hless hmore
  · omega
  · omega
  · rw [comparePids_nonpos]
    omega

theorem compareCpu_nonpos (a b : ProcessRow) :
    compareCpu a b ≤ 0 ↔
      b.cpuPercent < a.cpuPercent ∨ a.cpuPercent = b.cpuPercent ∧ a.pid ≤ b.pid := by
  unfold compareCpu comparePid
  split_ifs with hless hmore
  · simp [hless.not_gt, hless.ne]
  · simp [hmore]
  · have heq : a.cpuPercent = b.cpuPercent := le_antisymm (not_lt.mp hmore) (not_lt.mp hless)
    rw [comparePids_nonpos]
    simp [heq]

theorem compareName_nonpos (a b : ProcessRow) :
    compareName a b ≤ 0 ↔
      codes a.name < codes b.name ∨ codes a.name = codes b.name ∧ a.pid ≤ b.pid := by
  obtain ⟨hless, heq⟩ := strcmp_compares a.name b.name
  unfold compareName comparePid
  dsimp only
  split_ifs with hresult
  · rw [← hless, ← heq]
    omega
  · rw [comparePids_nonpos, ← hless, ← heq]
    omega

theorem comparator_spec (sort : ProcessSort) : Comparator (comparator sort) := by
  cases sort with
  | memory =>
    apply Comparator.of_key fun row => toLex (OrderDual.toDual row.rssKib.toNat, row.pid)
    intro a b
    rw [comparator, compareMemory_nonpos, Prod.Lex.toLex_le_toLex, UInt64.lt_iff_toNat_lt,
      ← UInt64.toNat_inj]
    rfl
  | cpu =>
    apply Comparator.of_key fun row => toLex (OrderDual.toDual row.cpuPercent, row.pid)
    intro a b
    rw [comparator, compareCpu_nonpos, Prod.Lex.toLex_le_toLex]
    rfl
  | pid =>
    apply Comparator.of_key ProcessRow.pid
    exact fun a b => comparePids_nonpos a.pid b.pid
  | name =>
    apply Comparator.of_key fun row => toLex (codes row.name, row.pid)
    intro a b
    rw [comparator, compareName_nonpos, Prod.Lex.toLex_le_toLex]

theorem precedes_of_nonpos {sort : ProcessSort} {a b : ProcessRow}
    (h : comparator sort a b ≤ 0) (hpid : a.pid ≠ b.pid) : Precedes sort a b := by
  have hlt : a.pid ≤ b.pid → a.pid < b.pid := fun hle => lt_of_le_of_ne hle hpid
  cases sort with
  | memory => exact ((compareMemory_nonpos a b).mp h).imp_right (And.imp_right hlt)
  | cpu => exact ((compareCpu_nonpos a b).mp h).imp_right (And.imp_right hlt)
  | pid => exact hlt ((comparePids_nonpos a.pid b.pid).mp h)
  | name => exact ((compareName_nonpos a b).mp h).imp_right (And.imp_right hlt)

theorem pid_eq_of_nonpos {sort : ProcessSort} {a b : ProcessRow}
    (h : comparator sort a b ≤ 0) (h' : comparator sort b a ≤ 0) : a.pid = b.pid := by
  by_contra hne
  have hab := precedes_of_nonpos h hne
  have hba := precedes_of_nonpos h' (Ne.symm hne)
  cases sort with
  | memory =>
    simp only [Precedes, UInt64.lt_iff_toNat_lt, ← UInt64.toNat_inj] at hab hba
    omega
  | cpu =>
    rcases hab with hab | ⟨hab, hless⟩ <;> rcases hba with hba | ⟨hba, hless'⟩
    · exact absurd hab hba.not_gt
    · exact absurd hba hab.ne
    · exact absurd hab hba.ne
    · omega
  | pid => exact absurd (show a.pid < b.pid from hab) (lt_asymm hba)
  | name =>
    rcases hab with hab | ⟨hab, hless⟩ <;> rcases hba with hba | ⟨hba, hless'⟩
    · exact absurd hab (lt_asymm hba)
    · exact absurd hba.symm hab.ne
    · exact absurd hab.symm hba.ne
    · omega

def table (env : Env) (rows : List ProcessRow) (query : Bytes) (sort : ProcessSort) :
    List ProcessRow :=
  sortProcesses env (kept rows query) sort

structure Ordered (rows : List ProcessRow) (query : Bytes) (sort : ProcessSort)
    (out : List ProcessRow) : Prop where
  perm : out.Perm (rows.filter fun row => processQueryMatches row query)
  ordered : out.Pairwise (Precedes sort)
  unknown_last : sort = .cpu → out.Pairwise fun a b => a.cpuPercent = -1 → ¬ 0 ≤ b.cpuPercent

theorem sortProcesses_nonpos (env : Env) (rows : List ProcessRow) (sort : ProcessSort) :
    (sortProcesses env rows sort).Pairwise fun a b => comparator sort a b ≤ 0 := by
  unfold sortProcesses
  split
  · rename_i hshort
    rcases rows with _ | ⟨a, _ | ⟨b, rows⟩⟩
    · exact List.Pairwise.nil
    · exact List.pairwise_singleton _ _
    · simp at hshort
  · exact env.qsort.sorted (comparator_spec sort) rows

theorem eq_of_nonpos {sort : ProcessSort} {rows out out' : List ProcessRow}
    (hpids : (rows.map ProcessRow.pid).Nodup) (hperm : out.Perm rows) (hperm' : out'.Perm rows)
    (hsorted : out.Pairwise fun a b => comparator sort a b ≤ 0)
    (hsorted' : out'.Pairwise fun a b => comparator sort a b ≤ 0) : out = out' := by
  apply List.Perm.eq_of_pairwise _ hsorted hsorted' (hperm.trans hperm'.symm)
  intro a b ha hb hab hba
  exact List.inj_on_of_nodup_map hpids (hperm.mem_iff.mp ha) (hperm'.mem_iff.mp hb)
    (pid_eq_of_nonpos hab hba)

theorem precedes_of_sorted {sort : ProcessSort} {out : List ProcessRow}
    (hpids : (out.map ProcessRow.pid).Nodup)
    (hsorted : out.Pairwise fun a b => comparator sort a b ≤ 0) : out.Pairwise (Precedes sort) := by
  have hne : out.Pairwise fun a b => a.pid ≠ b.pid := List.pairwise_map.mp hpids
  exact (hsorted.and hne).imp fun ⟨hle, hpid⟩ => precedes_of_nonpos hle hpid

/-- The table is the same for every order of the scan and every `qsort`, and whether the
search comes before the sorting or after it. -/
theorem table_ordered {rows rows' : List ProcessRow} (hpids : (rows.map ProcessRow.pid).Nodup)
    (hperm : rows'.Perm rows) (env env' : Env) (query : Bytes) (sort : ProcessSort) :
    Ordered rows query sort (table env rows query sort) ∧
      table env' rows' query sort = table env rows query sort ∧
      kept (sortProcesses env' rows' sort) query = table env rows query sort := by
  have hmatching : ((rows.filter fun row => processQueryMatches row query).map
      ProcessRow.pid).Nodup := hpids.sublist (List.filter_sublist.map _)
  have hkept : (kept rows query).Perm (rows.filter fun row => processQueryMatches row query) := by
    rw [kept_eq_filter]
  have hkept' : (kept rows' query).Perm (rows.filter fun row => processQueryMatches row query) := by
    rw [kept_eq_filter]
    exact hperm.filter _
  have htable := (sortProcesses_perm env (kept rows query) sort).trans hkept
  have hsorted := sortProcesses_nonpos env (kept rows query) sort
  refine ⟨⟨htable, ?_, ?_⟩, ?_, ?_⟩
  · exact precedes_of_sorted ((htable.map _).nodup_iff.mpr hmatching) hsorted
  · rintro rfl
    apply hsorted.imp
    intro a b hab hunknown hknown
    rcases (compareCpu_nonpos a b).mp hab with hless | ⟨heq, -⟩ <;> linarith
  · exact eq_of_nonpos hmatching ((sortProcesses_perm env' _ sort).trans hkept') htable
      (sortProcesses_nonpos env' _ sort) hsorted
  · apply eq_of_nonpos hmatching _ htable _ hsorted
    · rw [kept_eq_filter]
      exact ((sortProcesses_perm env' rows' sort).trans hperm).filter _
    · rw [kept_eq_filter]
      exact (sortProcesses_nonpos env' rows' sort).sublist List.filter_sublist

theorem twins_ordered :
    Ordered [emptyRow 7, emptyRow 8] [] .memory (table Env.idle [emptyRow 7, emptyRow 8] [] .memory) ∧
      table Env.idle [emptyRow 8, emptyRow 7] [] .memory =
        table Env.idle [emptyRow 7, emptyRow 8] [] .memory ∧
      kept (sortProcesses Env.idle [emptyRow 8, emptyRow 7] .memory) [] =
        table Env.idle [emptyRow 7, emptyRow 8] [] .memory :=
  table_ordered (by decide) (List.Perm.swap _ _ _) Env.idle Env.idle [] .memory

end RookieTop.ProcessOrder
