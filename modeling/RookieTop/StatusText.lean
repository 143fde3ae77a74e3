import RookieTop.ProcessList

/-! The text of `/proc/<pid>/status` as Linux writes it: the name with newline and
backslash escaped, and a field on each further line. -/
namespace RookieTop.StatusText

open CLib ProcDir ProcessList

def escapeByte (b : UInt8) : Bytes :=
  if b = 10 then [92, 110] else if b = 92 then [92, 92] else [b]

def escapeComm (comm : Bytes) : Bytes := comm.flatMap escapeByte

def keys : List Bytes := [keyName, keyState, keyThreads, keyVmRss]

/-- A line behind the name. Those that the program does not read contain none of its
keys, and may be longer than its buffer. -/
inductive StatusField where
  | state (letter : UInt8) (meaning : Bytes)
    (shown : isblank letter = false ∧ letter ≠ 10 ∧ letter ≠ 0)
    (line : 10 ∉ meaning ∧ 0 ∉ meaning) (short : meaning.length ≤ 64)
  | threads (count : UInt64)
  | vmRss (pad : Bytes) (kib : UInt64) (blank : ∀ b ∈ pad, b = 32) (short : pad.length ≤ 8)
  | other (text : Bytes) (line : 10 ∉ text ∧ 0 ∉ text)
    (apart : ∀ key ∈ keys, ¬ key <:+: text ++ [10])

namespace StatusField

def text : StatusField → Bytes
  | state letter meaning _ _ _ => keyState ++ 9 :: letter :: meaning
  | threads count => keyThreads ++ 9 :: decimal count.toNat
  | vmRss pad kib _ _ => keyVmRss ++ 9 :: (pad ++ decimal kib.toNat ++ 32 :: unitKb)
  | other text _ _ => text

end StatusField

def renderLines (fields : List StatusField) : Bytes := fields.flatMap fun f => f.text ++ [10]

def statusText (comm : Bytes) (fields : List StatusField) : Bytes :=
  keyName ++ 9 :: escapeComm comm ++ 10 :: renderLines fields

def Kept (lines : List Bytes) : Prop :=
  ∀ row, ∃ row', (lines.map cstr).foldlM statusStep (row, true) = some (row', true)

theorem kept_nil : Kept [] := fun row => ⟨row, rfl⟩

theorem Kept.append {lines more : List Bytes} (h : Kept lines) (hmore : Kept more) :
    Kept (lines ++ more) := by
  intro row
  obtain ⟨row', hrow⟩ := h row
  obtain ⟨row'', hrow'⟩ := hmore row'
  refine ⟨row'', ?_⟩
  rw [List.map_append, List.foldlM_append, hrow]
  exact hrow'

theorem kept_of_forall {lines : List Bytes}
    (h : ∀ line ∈ lines, ∀ row, parseStatusLine row (cstr line) ≠ .malformed) : Kept lines := by
  induction lines with
  | nil => exact kept_nil
  | cons line lines ih =>
    intro row
    have hline := h line (by simp) row
    obtain ⟨next, hnext⟩ : ∃ next, statusStep (row, true) (cstr line) = some (next, true) := by
      unfold statusStep
      cases hparse : parseStatusLine row (cstr line) with
      | malformed => exact absurd hparse hline
      | ignored => exact ⟨row, rfl⟩
      | parsed next => exact ⟨next, rfl⟩
    obtain ⟨row', hrest⟩ := ih (fun l hl => h l (by simp [hl])) next
    refine ⟨row', ?_⟩
    rw [List.map_cons, List.foldlM_cons, hnext]
    exact hrest

theorem parseStatusLine_ignored {line : Bytes} (h : ∀ key ∈ keys, startsWith line key = false)
    (row : ProcessRow) : parseStatusLine row line = .ignored := by
  simp only [keys, List.forall_mem_cons] at h
  obtain ⟨hname, hstate, hthreads, hrss, -⟩ := h
  simp [parseStatusLine, hname, hstate, hthreads, hrss]

theorem sscanf_count (count : UInt64) :
    sscanf countFormat (9 :: decimal count.toNat ++ [10]) = [.u64 count] :=
  sscanf_u64 (w := [9]) count (List.forall_mem_singleton.mpr rfl) (stops_cons.mpr rfl) [.space, .char]

theorem sscanf_kib {pad : Bytes} (hpad : ∀ b ∈ pad, b = 32) (kib : UInt64) :
    sscanf kibFormat (9 :: (pad ++ decimal kib.toNat ++ 32 :: unitKb) ++ [10]) =
      [.u64 kib, .word unitKb] := by
  have hblank : ∀ b ∈ (9 : UInt8) :: pad, isspace b = true := by
    intro b hb
    rcases List.mem_cons.mp hb with rfl | hb
    · rfl
    · rw [hpad b hb]
      rfl
  have hscan := sscanf_u64 (s := 32 :: unitKb ++ [10]) kib hblank (stops_cons.mpr rfl)
    [.space, .word 2, .space, .char]
  simp only [List.append_assoc, List.cons_append] at hscan ⊢
  have htail : sscanf [.space, .word 2, .space, .char] (32 :: (unitKb ++ [10])) =
      [.word unitKb] := by decide
  rw [kibFormat, hscan, htail]

namespace StatusField

theorem decimal_line (n : Nat) : (10 : UInt8) ∉ decimal n ∧ (0 : UInt8) ∉ decimal n :=
  ⟨fun h => absurd (isdigit_of_mem_decimal h) (by decide),
    fun h => absurd (isdigit_of_mem_decimal h) (by decide)⟩

theorem decimal_length (v : UInt64) : (decimal v.toNat).length ≤ 20 :=
  decimal_length_le (by decide) (Nat.lt_trans v.toNat_lt (by decide))

theorem line (f : StatusField) : 10 ∉ f.text ∧ 0 ∉ f.text := by
  cases f with
  | state letter meaning shown line short =>
    have hletter := shown.2
    simp [text, keyState, ascii, line, Ne.symm hletter.1, Ne.symm hletter.2]
  | threads count => simp [text, keyThreads, ascii, decimal_line]
  | vmRss pad kib blank short =>
    have hten : 10 ∉ pad := fun h => absurd (blank 10 h) (by decide)
    have hnul : 0 ∉ pad := fun h => absurd (blank 0 h) (by decide)
    simp [text, keyVmRss, unitKb, ascii, decimal_line, hten, hnul]
  | other text line apart => exact line

theorem ignored_of_piece {text piece : Bytes} (apart : ∀ key ∈ keys, ¬ key <:+: text ++ [10])
    (hpart : piece <:+: text ++ [10]) (row : ProcessRow) :
    parseStatusLine row piece = .ignored := by
  apply parseStatusLine_ignored
  intro key hkey
  rw [startsWith, Bool.eq_false_iff, ne_eq, List.isPrefixOf_iff_prefix]
  exact fun hstart => apart key hkey (hstart.isInfix.trans hpart)

theorem parse_state (letter : UInt8) (meaning : Bytes)
    (shown : isblank letter = false ∧ letter ≠ 10 ∧ letter ≠ 0) (row : ProcessRow) :
    parseStatusLine row (keyState ++ 9 :: letter :: meaning ++ [10]) =
      .parsed { row with state := letter } := by
  have hname : startsWith (keyState ++ (9 :: letter :: meaning ++ [10])) keyName = false := rfl
  have hdrop : (keyState ++ (9 :: letter :: meaning ++ [10])).drop 6 =
      9 :: letter :: meaning ++ [10] := rfl
  have hskip : (9 :: letter :: meaning ++ [10]).dropWhile isblank = letter :: (meaning ++ [10]) :=
    dropWhile_append_stop (w := [9]) (List.forall_mem_singleton.mpr rfl) (stops_cons.mpr shown.1)
  rw [List.append_assoc, parseStatusLine, hname, startsWith_append, hdrop, parseState, hskip]
  simp [shown.2.1]

theorem parse_threads (count : UInt64) (row : ProcessRow) :
    parseStatusLine row (keyThreads ++ 9 :: decimal count.toNat ++ [10]) =
      .parsed { row with threads := count } := by
  have hname : startsWith (keyThreads ++ (9 :: decimal count.toNat ++ [10])) keyName = false := rfl
  have hstate : startsWith (keyThreads ++ (9 :: decimal count.toNat ++ [10])) keyState = false := rfl
  have hdrop : (keyThreads ++ (9 :: decimal count.toNat ++ [10])).drop 8 =
      9 :: decimal count.toNat ++ [10] := rfl
  rw [List.append_assoc, parseStatusLine, hname, hstate, startsWith_append, hdrop, parseThreads,
    sscanf_count]
  rfl

theorem parse_vmRss {pad : Bytes} (blank : ∀ b ∈ pad, b = 32) (kib : UInt64) (row : ProcessRow) :
    parseStatusLine row (keyVmRss ++ 9 :: (pad ++ decimal kib.toNat ++ 32 :: unitKb) ++ [10]) =
      .parsed { row with rssKib := kib } := by
  have hkeys : ∀ s, startsWith (keyVmRss ++ s) keyName = false ∧
      startsWith (keyVmRss ++ s) keyState = false ∧
      startsWith (keyVmRss ++ s) keyThreads = false := fun s => ⟨rfl, rfl, rfl⟩
  obtain ⟨hname, hstate, hthreads⟩ :=
    hkeys (9 :: (pad ++ decimal kib.toNat ++ 32 :: unitKb) ++ [10])
  have hdrop : (keyVmRss ++ (9 :: (pad ++ decimal kib.toNat ++ 32 :: unitKb) ++ [10])).drop 6 =
      9 :: (pad ++ decimal kib.toNat ++ 32 :: unitKb) ++ [10] := rfl
  rw [List.append_assoc, parseStatusLine, hname, hstate, hthreads, startsWith_append, hdrop,
    parseVmRss, sscanf_kib blank]
  rfl

theorem parse (f : StatusField) (row : ProcessRow) :
    parseStatusLine row (f.text ++ [10]) ≠ .malformed := by
  cases f with
  | state letter meaning shown line short =>
    rw [text, parse_state letter meaning shown]
    exact StatusLine.noConfusion
  | threads count =>
    rw [text, parse_threads]
    exact StatusLine.noConfusion
  | vmRss pad kib blank short =>
    rw [text, parse_vmRss blank]
    exact StatusLine.noConfusion
  | other text line apart =>
    rw [StatusField.text, ignored_of_piece apart List.infix_rfl]
    exact StatusLine.noConfusion

theorem short_or_apart (f : StatusField) :
    f.text.length ≤ 80 ∧ startsWith (f.text ++ [10]) keyName = false ∨
      ∀ key ∈ keys, ¬ key <:+: f.text ++ [10] := by
  cases f with
  | state letter meaning shown line short =>
    refine Or.inl ⟨?_, rfl⟩
    simp only [text, keyState, ascii, List.length_append, List.length_cons]
    simp
    omega
  | threads count =>
    have := decimal_length count
    refine Or.inl ⟨?_, rfl⟩
    simp [text, keyThreads, ascii]
    omega
  | vmRss pad kib blank short =>
    have := decimal_length kib
    refine Or.inl ⟨?_, rfl⟩
    simp [text, keyVmRss, unitKb, ascii]
    omega
  | other text line apart => exact Or.inr apart

theorem kept (f : StatusField) {pieces : List Bytes} (hpart : ∀ p ∈ pieces, p <:+: f.text ++ [10])
    (hshort : f.text.length + 1 < lineMaxLocal → pieces = [f.text ++ [10]]) : Kept pieces := by
  have hnul : ∀ p ∈ pieces, cstr p = p := fun p hp => cstr_eq_self fun h0 => by
    have := (hpart p hp).subset h0
    simp [f.line.2] at this
  apply kept_of_forall
  intro piece hpiece row
  rw [hnul piece hpiece]
  by_cases hlen : f.text.length + 1 < lineMaxLocal
  · rw [hshort hlen, List.mem_singleton] at hpiece
    rw [hpiece]
    exact f.parse row
  · rcases f.short_or_apart with ⟨hshort, -⟩ | hapart
    · unfold lineMaxLocal at hlen
      omega
    · rw [ignored_of_piece hapart (hpart piece hpiece)]
      exact StatusLine.noConfusion

end StatusField

theorem kept_renderLines (fields : List StatusField) :
    Kept (fgetsAll lineMaxLocal ⟨renderLines fields, false⟩) := by
  induction fields with
  | nil => exact kept_nil
  | cons f fields ih =>
    have htext : renderLines (f :: fields) = f.text ++ 10 :: renderLines fields := by
      simp [renderLines]
    obtain ⟨pieces, hpieces, hpart⟩ := @fgetsAll_line lineMaxLocal (by decide) f.text
      (renderLines fields) false f.line.1
    rw [htext, hpieces]
    refine (f.kept hpart fun hshort => ?_).append ih
    rw [fgetsAll_newline f.line.1 hshort] at hpieces
    exact (@List.append_cancel_right _ [f.text ++ [10]] _ _ hpieces).symm

/-- Behind its leading blanks a name has a byte, and it is no carriage return. -/
def nameShown (comm : Bytes) : Bool := (comm.dropWhile isblank).head?.any (· != 13)

theorem escapeByte_cases (b : UInt8) :
    (b ≠ 10 ∧ b ≠ 92 ∧ escapeByte b = [b]) ∨ ∃ c, escapeByte b = [92, c] ∧ c ≠ 10 ∧ c ≠ 0 := by
  unfold escapeByte
  split_ifs with hnewline hslash
  · exact Or.inr ⟨110, rfl, by decide, by decide⟩
  · exact Or.inr ⟨92, rfl, by decide, by decide⟩
  · exact Or.inl ⟨hnewline, hslash, rfl⟩

theorem escapeComm_line {comm : Bytes} (hnul : 0 ∉ comm) :
    10 ∉ escapeComm comm ∧ 0 ∉ escapeComm comm := by
  have hbyte : ∀ b ∈ comm, 10 ∉ escapeByte b ∧ 0 ∉ escapeByte b := by
    intro b hb
    have hzero : b ≠ 0 := fun h => hnul (h ▸ hb)
    rcases escapeByte_cases b with ⟨hten, -, heq⟩ | ⟨c, heq, hten, hc⟩ <;> rw [heq]
    · simp [Ne.symm hten, Ne.symm hzero]
    · simp [Ne.symm hten, Ne.symm hc]
  constructor
  · rintro h
    obtain ⟨b, hb, hmem⟩ := List.mem_flatMap.mp h
    exact (hbyte b hb).1 hmem
  · rintro h
    obtain ⟨b, hb, hmem⟩ := List.mem_flatMap.mp h
    exact (hbyte b hb).2 hmem

theorem escapeComm_length (comm : Bytes) : (escapeComm comm).length ≤ 2 * comm.length := by
  induction comm with
  | nil => exact le_refl 0
  | cons b comm ih =>
    have hbyte : (escapeByte b).length ≤ 2 := by
      rcases escapeByte_cases b with ⟨-, -, heq⟩ | ⟨c, heq, -⟩ <;> simp [heq]
    have hcons : escapeComm (b :: comm) = escapeByte b ++ escapeComm comm := rfl
    rw [hcons, List.length_append, List.length_cons]
    omega

theorem escapeComm_dropWhile (comm : Bytes) :
    (escapeComm comm).dropWhile isblank = escapeComm (comm.dropWhile isblank) := by
  induction comm with
  | nil => rfl
  | cons b comm ih =>
    have hcons : escapeComm (b :: comm) = escapeByte b ++ escapeComm comm := rfl
    by_cases hb : isblank b = true
    · have hplain : escapeByte b = [b] := by
        rcases escapeByte_cases b with ⟨-, -, heq⟩ | ⟨c, heq, -⟩
        · exact heq
        · unfold escapeByte at heq
          split_ifs at heq with hnewline hslash
          · rw [hnewline] at hb
            exact absurd hb (by decide)
          · rw [hslash] at hb
            exact absurd hb (by decide)
          · simp at heq
      rw [hcons, hplain, List.dropWhile_cons_of_pos hb, ← ih]
      exact List.dropWhile_cons_of_pos hb
    · have hstop : Stops isblank (escapeByte b ++ escapeComm comm) := by
        rcases escapeByte_cases b with ⟨-, -, heq⟩ | ⟨c, heq, -⟩ <;> rw [heq]
        · exact stops_cons.mpr (by simpa using hb)
        · exact stops_cons.mpr rfl
      rw [hcons, dropWhile_of_stops hstop, List.dropWhile_cons_of_neg hb]
      rfl

theorem dropWhile_value (comm : Bytes) :
    (9 :: escapeComm comm ++ [10]).dropWhile isblank =
      escapeComm (comm.dropWhile isblank) ++ [10] := by
  rw [List.cons_append, List.dropWhile_cons_of_pos rfl, List.dropWhile_append,
    escapeComm_dropWhile]
  split
  · rename_i hempty
    rw [List.isEmpty_iff.mp hempty]
    rfl
  · rfl

theorem strcspn_escapeComm (comm : Bytes) :
    strcspn (escapeComm (comm.dropWhile isblank) ++ [10]) [13, 10] ≠ 0 ↔ nameShown comm = true := by
  unfold nameShown
  cases comm.dropWhile isblank with
  | nil => simp [escapeComm, strcspn]
  | cons b t =>
    have hcons : escapeComm (b :: t) = escapeByte b ++ escapeComm t := rfl
    rw [hcons]
    rcases escapeByte_cases b with ⟨hten, -, heq⟩ | ⟨c, heq, -⟩
    · by_cases hcr : b = 13
      · subst hcr
        simp [strcspn, heq]
      · simp [strcspn, heq, hten, hcr]
    · have hne : b ≠ 13 := by
        rintro rfl
        simp [escapeByte] at heq
      simp [strcspn, heq, hne]

theorem parseName_escapeComm {comm : Bytes} (hshort : comm.length ≤ 15) (row : ProcessRow) :
    if nameShown comm then
      ∃ name, parseName row (9 :: escapeComm comm ++ [10]) = .parsed { row with name := name }
    else parseName row (9 :: escapeComm comm ++ [10]) = .malformed := by
  have hlen : (escapeComm (comm.dropWhile isblank)).length ≤ 30 := by
    have hle := escapeComm_length (comm.dropWhile isblank)
    have hdrop : (comm.dropWhile isblank).length ≤ comm.length := List.length_dropWhile_le ..
    omega
  have hspan : strcspn (escapeComm (comm.dropWhile isblank) ++ [10]) [13, 10] ≤ 31 := by
    refine (List.takeWhile_prefix _).length_le.trans ?_
    rw [List.length_append, List.length_singleton]
    omega
  have hfits : ¬ processListNameMax ≤
      strcspn (escapeComm (comm.dropWhile isblank) ++ [10]) [13, 10] := by
    unfold processListNameMax
    omega
  have hiff := strcspn_escapeComm comm
  simp only [parseName, dropWhile_value, hfits, or_false]
  split
  · rename_i hshown
    exact ⟨_, if_neg (hiff.mpr hshown)⟩
  · rename_i hshown
    exact if_pos (not_not.mp fun hne => hshown (hiff.mp hne))

theorem cstr_nameLine {comm : Bytes} (hnul : 0 ∉ comm) :
    cstr (keyName ++ 9 :: escapeComm comm ++ [10]) = keyName ++ (9 :: escapeComm comm ++ [10]) := by
  rw [List.append_assoc]
  apply cstr_eq_self
  simp [keyName, ascii, (escapeComm_line hnul).2]

/-- The explorer reads a status file if and only if it can show the name. -/
theorem parseStatus_statusText {comm : Bytes} (hnul : 0 ∉ comm) (hshort : comm.length ≤ 15)
    (fields : List StatusField) (pid : Int) :
    (parseStatus pid ⟨statusText comm fields, false⟩).isSome ↔ nameShown comm = true := by
  have hline : 10 ∉ keyName ++ 9 :: escapeComm comm := by
    simp [keyName, ascii, (escapeComm_line hnul).1]
  have hfits : (keyName ++ 9 :: escapeComm comm).length + 1 < lineMaxLocal := by
    have hle := escapeComm_length comm
    simp only [keyName, ascii, lineMaxLocal, List.length_append, List.length_cons]
    simp
    omega
  have hname : ∀ s, startsWith (keyName ++ s) keyName = true := startsWith_append keyName
  have hparse : ∀ row, parseStatusLine row (keyName ++ (9 :: escapeComm comm ++ [10])) =
      parseName row (9 :: escapeComm comm ++ [10]) := fun row => by
    rw [parseStatusLine, hname]
    rfl
  have hfirst := parseName_escapeComm hshort (emptyRow pid)
  unfold parseStatus statusText
  rw [fgetsAll_newline hline hfits, List.map_cons, List.foldlM_cons, cstr_nameLine hnul,
    statusStep, hparse]
  split at hfirst
  · rename_i hshown
    obtain ⟨name, hparsed⟩ := hfirst
    obtain ⟨row, hrow⟩ := kept_renderLines fields { emptyRow pid with name := name }
    rw [hparsed]
    simp [hname, hrow, hshown]
  · rename_i hshown
    rw [hfirst]
    simp [hshown]

end RookieTop.StatusText
