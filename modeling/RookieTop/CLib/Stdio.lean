import RookieTop.CLib.Bytes

/-! Reading a stream line by line. A stream is what an open file still holds,
and whether reading past its last byte ends in an error instead of end of file. -/
namespace CLib

structure Stream where
  bytes : Bytes
  error : Bool
  deriving DecidableEq, Repr

/-- At most `n` bytes, up to and including the first newline, and what is left. -/
def takeLine : Nat → Bytes → Bytes × Bytes
  | 0, s => ([], s)
  | _ + 1, [] => ([], [])
  | n + 1, b :: s =>
    if b = 10 then ([b], s)
    else
      let (line, rest) := takeLine n s
      (b :: line, rest)

/-- `fgets` into a buffer of `size` bytes. A read error before the line is
complete gives `NULL`, as does the end of the file. -/
def fgets (size : Nat) (stream : Stream) : Option (Bytes × Stream) :=
  let (line, rest) := takeLine (size - 1) stream.bytes
  let cut := line.length < size - 1 ∧ line.getLast? ≠ some 10
  if line = [] ∨ (cut ∧ stream.error) then none
  else some (line, { stream with bytes := rest })

def fgetsLoop (size : Nat) : Nat → Stream → List Bytes
  | 0, _ => []
  | fuel + 1, stream =>
    match fgets size stream with
    | none => []
    | some (line, stream) => line :: fgetsLoop size fuel stream

/-- The buffers that `while (fgets(line, size, file) != NULL)` goes through. Each
call takes a byte, so the length of the stream bounds the calls. -/
def fgetsAll (size : Nat) (stream : Stream) : List Bytes :=
  fgetsLoop size stream.bytes.length stream

theorem takeLine_append (n : Nat) (s : Bytes) : (takeLine n s).1 ++ (takeLine n s).2 = s := by
  induction n generalizing s with
  | zero => rfl
  | succ n ih =>
    cases s with
    | nil => rfl
    | cons b s =>
      by_cases hb : b = 10
      · simp [takeLine, hb]
      · simp [takeLine, hb, ih s]

theorem takeLine_length_le (n : Nat) (s : Bytes) : (takeLine n s).1.length ≤ n := by
  induction n generalizing s with
  | zero => exact le_refl 0
  | succ n ih =>
    cases s with
    | nil => exact Nat.zero_le _
    | cons b s =>
      have htail := ih s
      by_cases hb : b = 10
      · simp [takeLine, hb]
      · simpa [takeLine, hb] using htail

theorem takeLine_newline {n : Nat} {line s : Bytes} (hline : 10 ∉ line)
    (hn : line.length < n) : takeLine n (line ++ 10 :: s) = (line ++ [10], s) := by
  induction line generalizing n with
  | nil =>
    obtain ⟨n, rfl⟩ : ∃ m, n = m + 1 := ⟨n - 1, by simp at hn; omega⟩
    simp [takeLine]
  | cons b line ih =>
    obtain ⟨n, rfl⟩ : ∃ m, n = m + 1 := ⟨n - 1, by simp at hn; omega⟩
    have hb : b ≠ 10 := fun h => hline (by simp [h])
    have htail := ih (fun h => hline (by simp [h])) (n := n) (by simpa using hn)
    simp [takeLine, hb, htail]

theorem takeLine_of_notMem {n : Nat} {s : Bytes} (h : 10 ∉ s.take n) :
    takeLine n s = (s.take n, s.drop n) := by
  induction n generalizing s with
  | zero => rfl
  | succ n ih =>
    cases s with
    | nil => rfl
    | cons b s =>
      simp only [List.take_succ_cons, List.mem_cons, not_or] at h
      have hb : b ≠ 10 := fun hb => h.1 hb.symm
      simp [takeLine, hb, ih h.2]

theorem takeLine_append_left {n : Nat} {w : Bytes} (s : Bytes) (hw : 10 ∉ w) (hn : w.length ≤ n) :
    (takeLine n (w ++ s)).1 = w ++ (takeLine (n - w.length) s).1 := by
  induction w generalizing n with
  | nil => rfl
  | cons b w ih =>
    obtain ⟨n, rfl⟩ : ∃ m, n = m + 1 := ⟨n - 1, by simp at hn; omega⟩
    have hb : b ≠ 10 := fun h => hw (by simp [h])
    have htail := ih (fun h => hw (by simp [h])) (by simpa using hn)
    simp [takeLine, hb, htail]

theorem mem_of_mem_takeLine {n : Nat} {s : Bytes} {b : UInt8} (h : b ∈ (takeLine n s).1) :
    b ∈ s := by
  rw [← takeLine_append n s]
  exact List.mem_append_left _ h

theorem fgets_newline {size : Nat} {line s : Bytes} {error : Bool} (hline : 10 ∉ line)
    (hn : line.length + 1 < size) :
    fgets size ⟨line ++ 10 :: s, error⟩ = some (line ++ [10], ⟨s, error⟩) := by
  simp [fgets, takeLine_newline hline (show line.length < size - 1 by omega)]

theorem fgets_nil (size : Nat) (error : Bool) : fgets size ⟨[], error⟩ = none := by
  have h : takeLine (size - 1) [] = ([], []) := by
    cases size - 1 <;> rfl
  simp [fgets, h]

/-- Without a read error only the end of the file stops a line from being returned. -/
theorem fgets_eq_takeLine {size : Nat} {s : Bytes} (h : (takeLine (size - 1) s).1 ≠ []) :
    fgets size ⟨s, false⟩ =
      some ((takeLine (size - 1) s).1, ⟨(takeLine (size - 1) s).2, false⟩) := by
  simp [fgets, h]

theorem fgets_full {size : Nat} {s : Bytes} {error : Bool} (h : 10 ∉ s.take (size - 1))
    (hsize : 1 < size) (hlen : size - 1 ≤ s.length) :
    fgets size ⟨s, error⟩ = some (s.take (size - 1), ⟨s.drop (size - 1), error⟩) := by
  have hne : s.take (size - 1) ≠ [] := by
    intro hnil
    have := congrArg List.length hnil
    rw [List.length_take, List.length_nil] at this
    omega
  simp [fgets, takeLine_of_notMem h, hne, hlen]

theorem fgets_some {size : Nat} {stream stream' : Stream} {line : Bytes}
    (h : fgets size stream = some (line, stream')) :
    line ≠ [] ∧ line ++ stream'.bytes = stream.bytes ∧ stream'.error = stream.error := by
  have happend := takeLine_append (size - 1) stream.bytes
  unfold fgets at h
  dsimp only at h
  split at h
  · simp at h
  · rename_i hc
    simp only [Option.some.injEq, Prod.mk.injEq] at h
    obtain ⟨rfl, rfl⟩ := h
    exact ⟨fun hnil => hc (Or.inl hnil), happend, rfl⟩

theorem fgetsLoop_fuel (size : Nat) {fuel : Nat} (stream : Stream)
    (h : stream.bytes.length ≤ fuel) :
    fgetsLoop size fuel stream = fgetsAll size stream := by
  suffices hall : ∀ a b, ∀ s : Stream, s.bytes.length ≤ a → s.bytes.length ≤ b →
      fgetsLoop size a s = fgetsLoop size b s from
    hall fuel _ stream h le_rfl
  have hnil : ∀ n, ∀ s : Stream, s.bytes = [] → fgetsLoop size n s = [] := by
    intro n s hs
    obtain ⟨bytes, error⟩ := s
    dsimp only at hs
    subst hs
    cases n <;> simp [fgetsLoop, fgets_nil]
  intro a
  induction a with
  | zero =>
    intro b s ha _
    have hs : s.bytes = [] := by simpa using ha
    rw [hnil 0 s hs, hnil b s hs]
  | succ a ih =>
    intro b s ha hb
    cases b with
    | zero =>
      have hs : s.bytes = [] := by simpa using hb
      rw [hnil _ s hs, hnil _ s hs]
    | succ b =>
      simp only [fgetsLoop]
      cases hg : fgets size s with
      | none => rfl
      | some r =>
        obtain ⟨line, s'⟩ := r
        obtain ⟨hne, happ, -⟩ := fgets_some hg
        have hlen := congrArg List.length happ
        rw [List.length_append] at hlen
        have hpos := List.length_pos_iff.mpr hne
        dsimp only
        rw [ih b s' (by omega) (by omega)]

theorem fgetsAll_of_fgets {size : Nat} {stream stream' : Stream} {line : Bytes}
    (h : fgets size stream = some (line, stream')) :
    fgetsAll size stream = line :: fgetsAll size stream' := by
  obtain ⟨hne, happ, -⟩ := fgets_some h
  have hlen := congrArg List.length happ
  have hpos := List.length_pos_iff.mpr hne
  rw [List.length_append] at hlen
  unfold fgetsAll
  obtain ⟨n, hn⟩ : ∃ n, stream.bytes.length = n + 1 := ⟨stream.bytes.length - 1, by omega⟩
  rw [hn, fgetsLoop, h]
  exact congrArg (line :: ·) (fgetsLoop_fuel size stream' (by omega))

theorem fgetsAll_newline {size : Nat} {line s : Bytes} {error : Bool} (hline : 10 ∉ line)
    (hn : line.length + 1 < size) :
    fgetsAll size ⟨line ++ 10 :: s, error⟩ = (line ++ [10]) :: fgetsAll size ⟨s, error⟩ :=
  fgetsAll_of_fgets (fgets_newline hline hn)

/-- A line of any length is read in pieces, and the next line starts a piece again. -/
theorem fgetsAll_line {size : Nat} (hsize : 1 < size) (text s : Bytes) (error : Bool)
    (htext : 10 ∉ text) :
    ∃ pieces, fgetsAll size ⟨text ++ 10 :: s, error⟩ = pieces ++ fgetsAll size ⟨s, error⟩ ∧
      ∀ p ∈ pieces, p <:+: text ++ [10] := by
  induction hlen : text.length using Nat.strong_induction_on generalizing text with
  | _ n ih =>
    rcases Nat.lt_or_ge (text.length + 1) size with hshort | hlong
    · exact ⟨[text ++ [10]], fgetsAll_newline htext hshort, by simp⟩
    · have hle : size - 1 ≤ text.length := by omega
      have htake : (text ++ 10 :: s).take (size - 1) = text.take (size - 1) :=
        List.take_append_of_le_length hle
      have hdrop : (text ++ 10 :: s).drop (size - 1) = text.drop (size - 1) ++ 10 :: s :=
        List.drop_append_of_le_length hle
      have hfull := @fgets_full size (text ++ 10 :: s) error
        (by rw [htake]; exact fun h => htext (List.mem_of_mem_take h)) hsize
        (by rw [List.length_append]; omega)
      rw [htake, hdrop] at hfull
      obtain ⟨pieces, hpieces, hpart⟩ := ih (text.drop (size - 1)).length
        (by rw [List.length_drop]; omega) (text.drop (size - 1))
        (fun h => htext (List.mem_of_mem_drop h)) rfl
      refine ⟨text.take (size - 1) :: pieces, by rw [fgetsAll_of_fgets hfull, hpieces]; rfl, ?_⟩
      rw [List.forall_mem_cons]
      constructor
      · exact (List.take_prefix _ _).isInfix.trans (List.prefix_append _ _).isInfix
      · intro p hp
        refine (hpart p hp).trans ?_
        exact ⟨text.take (size - 1), [], by
          rw [List.append_nil, ← List.append_assoc, List.take_append_drop]⟩

theorem infix_of_mem_fgetsAll {size : Nat} {stream : Stream} {line : Bytes}
    (h : line ∈ fgetsAll size stream) : line <:+: stream.bytes := by
  induction hlen : stream.bytes.length using Nat.strong_induction_on generalizing stream with
  | _ n ih =>
    cases hread : fgets size stream with
    | none =>
      unfold fgetsAll at h
      cases hb : stream.bytes.length with
      | zero =>
        rw [hb] at h
        cases h
      | succ m =>
        rw [hb, fgetsLoop, hread] at h
        cases h
    | some r =>
      obtain ⟨first, rest⟩ := r
      obtain ⟨hne, happ, -⟩ := fgets_some hread
      rw [fgetsAll_of_fgets hread] at h
      rcases List.mem_cons.mp h with rfl | hmem
      · exact ⟨[], rest.bytes, happ⟩
      · have hpos := List.length_pos_iff.mpr hne
        have hlt : rest.bytes.length < n := by
          rw [← hlen, ← happ, List.length_append]
          omega
        exact (ih _ hlt hmem rfl).trans ⟨first, [], by rw [List.append_nil, happ]⟩

/-- The rule for a loop that each line may end: what every pass keeps, the loop keeps. -/
theorem foldlM_keeps_mem {Item State : Type} {step : State → Item → Option State}
    {P : State → Prop} {items : List Item}
    (hstep : ∀ item ∈ items, ∀ {s s'}, step s item = some s' → P s → P s') {s s' : State}
    (h : items.foldlM step s = some s') (hs : P s) : P s' := by
  induction items generalizing s with
  | nil =>
    cases Option.some.inj h
    exact hs
  | cons item items ih =>
    rw [List.foldlM_cons] at h
    obtain ⟨next, hnext, hrest⟩ := Option.bind_eq_some_iff.mp h
    exact ih (fun i hi => hstep i (List.mem_cons_of_mem _ hi)) hrest
      (hstep item List.mem_cons_self hnext hs)

theorem foldlM_keeps {Item State : Type} {step : State → Item → Option State} {P : State → Prop}
    (hstep : ∀ {s item s'}, step s item = some s' → P s → P s') {items : List Item} {s s' : State}
    (h : items.foldlM step s = some s') (hs : P s) : P s' :=
  foldlM_keeps_mem (fun _ _ => hstep) h hs

end CLib
