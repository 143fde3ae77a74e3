import RookieTop.CLib.Bytes

/-! The words of a text, as white space cuts it. -/
namespace CLib

def words (s : Bytes) : List Bytes := (s.splitOnP isspace).filter fun w => w ≠ []

@[simp] theorem words_nil : words [] = [] := by
  simp [words]

theorem words_space {b : UInt8} (hb : isspace b = true) (s : Bytes) : words (b :: s) = words s := by
  unfold words
  rw [List.splitOnP_cons_eq_if_modifyHead, if_pos hb]
  simp

theorem words_dropWhile (s : Bytes) : words (s.dropWhile isspace) = words s := by
  induction s with
  | nil => rfl
  | cons b s ih =>
    by_cases hb : isspace b = true
    · rw [List.dropWhile_cons_of_pos hb, ih, words_space hb]
    · rw [List.dropWhile_cons_of_neg hb]

theorem words_append {w s : Bytes} (hne : w ≠ []) (hw : ∀ b ∈ w, isspace b = false)
    (hs : Stops (fun b => !isspace b) s) : words (w ++ s) = w :: words s := by
  cases s with
  | nil =>
    unfold words
    rw [List.append_nil, List.splitOnP_eq_singleton hw]
    simp [hne]
  | cons b s =>
    have hb : isspace b = true := by simpa using stops_cons.mp hs
    rw [words_space hb]
    unfold words
    rw [List.splitOnP_append_cons_of_forall_mem hw b hb]
    simp [hne]

theorem words_eq_cons {s : Bytes} (hne : s ≠ []) (hs : Stops isspace s) :
    words s = s.takeWhile (fun b => !isspace b) :: words (s.dropWhile fun b => !isspace b) := by
  have hword : ∀ b ∈ s.takeWhile fun b => !isspace b, isspace b = false := fun b hb => by
    simpa using List.mem_takeWhile_imp hb
  have hfirst : s.takeWhile (fun b => !isspace b) ≠ [] := by
    obtain ⟨b, t, rfl⟩ := List.exists_cons_of_ne_nil hne
    rw [List.takeWhile_cons_of_pos (by simpa using stops_cons.mp hs)]
    simp
  have happend := words_append hfirst hword (stops_dropWhile (fun b => !isspace b) s)
  rwa [List.takeWhile_append_dropWhile] at happend

theorem isspace_of_mem_words {s w : Bytes} (h : w ∈ words s) : ∀ b ∈ w, isspace b = false := by
  have hpiece := (List.mem_filter.mp h).1
  clear h
  induction s generalizing w with
  | nil =>
    rw [List.splitOnP_nil, List.mem_singleton] at hpiece
    simp [hpiece]
  | cons c s ih =>
    obtain ⟨first, pieces, hs⟩ := List.exists_cons_of_ne_nil (List.splitOnP_ne_nil isspace s)
    rw [hs] at ih
    rw [List.splitOnP_cons_eq_if_modifyHead, hs] at hpiece
    split at hpiece
    · rcases List.mem_cons.mp hpiece with rfl | hmem
      · simp
      · exact ih hmem
    · rename_i hc
      rw [List.modifyHead_cons] at hpiece
      rcases List.mem_cons.mp hpiece with rfl | hmem
      · intro b hb
        rcases List.mem_cons.mp hb with rfl | hb
        · simpa using hc
        · exact ih List.mem_cons_self b hb
      · exact ih (List.mem_cons_of_mem _ hmem)

end CLib
