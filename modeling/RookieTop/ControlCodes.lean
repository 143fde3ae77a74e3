import RookieTop.Lives
import RookieTop.StatusReaders

/-! What the program prints of a process that may call itself anything. -/
namespace RookieTop.ControlCodes

open CLib ProcDir ProcessCpu StatusText Kernel

open StatusReaders (take_strcspn parseName_eq)

open Process (ProcessInfo processParseStatus statusLineMax)

open ProcessList (ProcessRow parseStatus keyName parseCmdline commandOr processCmdlineMax
  lineMaxLocal parseStatusLine)

/-- Below a space, or DEL. -/
def control (b : UInt8) : Bool := b < 32 || b == 127

/-- One line without a NUL, whose control codes are among these bytes. -/
structure Printed (own s : Bytes) : Prop where
  nul : 0 ∉ s
  newline : 10 ∉ s
  own : ∀ b ∈ s, control b = true → b ∈ own

structure PrintedLine (own s : Bytes) : Prop extends Printed own s where
  cr : 13 ∉ s

theorem Printed.subset {own s t : Bytes} (h : Printed own s) (hsub : t ⊆ s) : Printed own t :=
  ⟨fun hb => h.nul (hsub hb), fun hb => h.newline (hsub hb), fun b hb => h.own b (hsub hb)⟩

theorem printedLine_nil (own : Bytes) : PrintedLine own [] where
  nul := List.not_mem_nil
  newline := List.not_mem_nil
  own _ hb := absurd hb List.not_mem_nil
  cr := List.not_mem_nil

theorem printed_escapeComm {comm : Bytes} (hnul : 0 ∉ comm) : Printed comm (escapeComm comm) where
  nul := (escapeComm_line hnul).2
  newline := (escapeComm_line hnul).1
  own b hb hcontrol := by
    obtain ⟨c, hc, hmem⟩ := List.mem_flatMap.mp hb
    unfold escapeByte at hmem
    split_ifs at hmem with hnewline hslash
    · simp only [List.mem_cons, List.not_mem_nil, or_false] at hmem
      rcases hmem with rfl | rfl
      · exact absurd hcontrol (by decide)
      · exact absurd hcontrol (by decide)
    · simp only [List.mem_cons, List.not_mem_nil, or_false, or_self] at hmem
      rw [hmem] at hcontrol
      exact absurd hcontrol (by decide)
    · rw [List.mem_singleton.mp hmem]
      exact hc

/-- What the readers of a status file take from the line of the name: a part of it that goes no
further than a carriage return. -/
def NameOf (line name : Bytes) : Prop :=
  name ⊆ ((line.drop 5).dropWhile isblank).takeWhile fun b => !([13, 10] : Bytes).contains b

theorem explorer_name {found found' : ProcessRow × Bool} {line : Bytes}
    (h : ProcessList.statusStep found line = some found') :
    found'.1.name = found.1.name ∨ startsWith line keyName = true ∧ NameOf line found'.1.name := by
  unfold ProcessList.statusStep at h
  split at h
  · cases h
  · cases Option.some.inj h
    exact Or.inl rfl
  · rename_i row hparsed
    cases Option.some.inj h
    obtain ⟨-, -, hsame | ⟨hstart, hname⟩⟩ := ProcessList.parseStatusLine_keeps hparsed
    · exact Or.inl hsame
    · rw [parseName_eq] at hname
      split_ifs at hname
      cases ProcessList.StatusLine.parsed.inj hname
      exact Or.inr ⟨hstart, List.Subset.refl _⟩

theorem overview_name {found found' : ProcessInfo × Bool} {line : Bytes}
    (h : Process.statusStep found line = some found') :
    found'.1.name = found.1.name ∨ startsWith line keyName = true ∧ NameOf line found'.1.name := by
  unfold Process.statusStep at h
  split at h
  · cases h
  · rename_i name hname
    cases Option.some.inj h
    unfold Process.parseName at hname
    split_ifs at hname with hstart
    dsimp only at hname
    split_ifs at hname
    cases Process.Parsed.value.inj hname
    refine Or.inr ⟨hstart, ?_⟩
    rw [take_strcspn]
    exact (List.rdropWhile_prefix _ _).subset
  · left
    split at h
    · cases h
    · cases Option.some.inj h
      rfl
    · cases Option.some.inj h
      rfl

theorem renderLines_pieces {size : Nat} (hsize : statusLineMax ≤ size) {fields : List StatusField}
    {piece : Bytes} (h : piece ∈ fgetsAll size ⟨renderLines fields, false⟩) :
    startsWith piece keyName = false := by
  have hone : 1 < size := Nat.lt_of_lt_of_le (by decide) hsize
  induction fields with
  | nil => cases h
  | cons f fields ih =>
    have htext : renderLines (f :: fields) = f.text ++ 10 :: renderLines fields := by
      simp [renderLines]
    rw [htext] at h
    rcases f.short_or_apart with ⟨hshort, hname⟩ | hapart
    · have hlen : f.text.length + 1 < size := by
        unfold statusLineMax at hsize
        omega
      rw [fgetsAll_newline f.line.1 hlen] at h
      rcases List.mem_cons.mp h with rfl | h
      · exact hname
      · exact ih h
    · obtain ⟨pieces, hpieces, hpart⟩ := @fgetsAll_line size hone f.text (renderLines fields) false
        f.line.1
      rw [hpieces] at h
      rcases List.mem_append.mp h with h | h
      · rw [← Bool.not_eq_true]
        intro hstart
        exact hapart keyName (by decide) ((List.isPrefixOf_iff_prefix.mp hstart).isInfix.trans
          (hpart piece h))
      · exact ih h

theorem name_piece {size : Nat} (hsize : statusLineMax ≤ size) {comm : Bytes}
    (hshort : comm.length ≤ 15) (hnul : 0 ∉ comm) {fields : List StatusField} {piece : Bytes}
    (h : piece ∈ fgetsAll size ⟨statusText comm fields, false⟩)
    (hstart : startsWith piece keyName = true) :
    piece = keyName ++ 9 :: escapeComm comm ++ [10] := by
  have hline : 10 ∉ keyName ++ 9 :: escapeComm comm := by
    simp [keyName, ascii, (escapeComm_line hnul).1]
  have hlen : (keyName ++ 9 :: escapeComm comm).length + 1 < size := by
    have hescape := escapeComm_length comm
    unfold statusLineMax at hsize
    simp only [keyName, ascii, List.length_append, List.length_cons]
    simp
    omega
  have htext : statusText comm fields =
      (keyName ++ 9 :: escapeComm comm) ++ 10 :: renderLines fields := by simp [statusText]
  rw [htext, fgetsAll_newline hline hlen] at h
  rcases List.mem_cons.mp h with heq | hrest
  · exact heq
  · rw [renderLines_pieces hsize hrest] at hstart
    cases hstart

theorem printed_nameOf {comm name : Bytes} (hnul : 0 ∉ comm)
    (h : NameOf (keyName ++ 9 :: escapeComm comm ++ [10]) name) : PrintedLine comm name := by
  have hvalue : ((keyName ++ 9 :: escapeComm comm ++ [10]).drop 5).dropWhile isblank =
      escapeComm (comm.dropWhile isblank) ++ [10] := dropWhile_value comm
  unfold NameOf at h
  rw [hvalue] at h
  have hmem : ∀ b ∈ name, b ≠ 13 ∧ b ∈ escapeComm (comm.dropWhile isblank) := by
    intro b hb
    have hstop := List.mem_takeWhile_imp (h hb)
    have hpart := (List.takeWhile_prefix _).subset (h hb)
    simp only [List.contains_cons, List.contains_nil, Bool.or_false, Bool.not_or, Bool.and_eq_true,
      Bool.not_eq_true', beq_eq_false_iff_ne] at hstop
    rcases List.mem_append.mp hpart with hpart | hpart
    · exact ⟨hstop.1, hpart⟩
    · exact absurd (List.mem_singleton.mp hpart) hstop.2
  have hsub := (List.dropWhile_suffix (p := isblank) (l := comm)).subset
  have hprinted : Printed (comm.dropWhile isblank) (escapeComm (comm.dropWhile isblank)) :=
    printed_escapeComm fun h0 => hnul (hsub h0)
  exact ⟨⟨fun hb => hprinted.nul (hmem _ hb).2, fun hb => hprinted.newline (hmem _ hb).2,
    fun b hb hcontrol => hsub (hprinted.own b (hmem b hb).2 hcontrol)⟩, fun hb => (hmem _ hb).1 rfl⟩

theorem printed_loop {State : Type} {step : State → Bytes → Option State} {name : State → Bytes}
    (hstep : ∀ {s line s'}, step s line = some s' →
      name s' = name s ∨ startsWith line keyName = true ∧ NameOf line (name s'))
    {size : Nat} (hsize : statusLineMax ≤ size) {comm : Bytes} (hshort : comm.length ≤ 15)
    (hnul : 0 ∉ comm) {fields : List StatusField} {s s' : State}
    (h : ((fgetsAll size ⟨statusText comm fields, false⟩).map cstr).foldlM step s = some s')
    (hs : PrintedLine comm (name s)) : PrintedLine comm (name s') := by
  refine foldlM_keeps_mem (P := fun s => PrintedLine comm (name s)) ?_ h hs
  intro line hline s s' hs' hkept
  rcases hstep hs' with hsame | ⟨hstart, hname⟩
  · rw [hsame]
    exact hkept
  · obtain ⟨piece, hpiece, rfl⟩ := List.mem_map.mp hline
    have hpiece := name_piece hsize hshort hnul hpiece
      (List.isPrefixOf_iff_prefix.mpr
        ((List.isPrefixOf_iff_prefix.mp hstart).trans (List.takeWhile_prefix _)))
    have hcstr : cstr piece = keyName ++ 9 :: escapeComm comm ++ [10] := by
      rw [hpiece]
      exact cstr_eq_self (by simp [keyName, ascii, (escapeComm_line hnul).2])
    rw [hcstr] at hname
    exact printed_nameOf hnul hname

section Strings

variable (t : Task) {pid : Int}

theorem printed_row {row : ProcessRow}
    (h : parseStatus pid ⟨t.text (.pidStatus pid), false⟩ = some row) :
    PrintedLine t.comm row.name := by
  unfold parseStatus at h
  split at h
  · cases h
  · rename_i hloop
    obtain ⟨-, h⟩ := Option.ite_none_left_eq_some.mp h
    cases Option.some.inj h
    exact @printed_loop _ _ (fun found => found.1.name) explorer_name _ (by decide) _ t.comm_short
      t.comm_nul _ _ _ hloop (printedLine_nil _)

theorem printed_info {info : ProcessInfo}
    (h : processParseStatus ⟨t.text (.pidStatus pid), false⟩ pid = some info) :
    PrintedLine t.comm info.name := by
  unfold processParseStatus at h
  split_ifs at h
  split at h
  · cases h
  · rename_i hloop
    obtain ⟨-, h⟩ := Option.ite_none_left_eq_some.mp h
    cases Option.some.inj h
    exact @printed_loop _ _ (fun found => found.1.name) overview_name _ le_rfl _ t.comm_short
      t.comm_nul _ _ _ hloop (printedLine_nil _)

theorem printed_stat (hpid : 0 < pid) (hmax : pid ≤ intMax) {stat : ProcessCpuStat}
    (h : parseStatStream ⟨t.text (.pidStat pid), false⟩ = some stat) :
    Printed t.comm stat.name := by
  rcases t.parseStatStream_statText hpid hmax with ⟨hok, hparse⟩ | ⟨-, hparse⟩
  · cases Option.some.inj (h.symm.trans hparse)
    exact ⟨t.comm_nul, hok.2.1, fun b hb _ => hb⟩
  · cases h.symm.trans hparse

theorem printed_cpuInfo (hpid : 0 < pid) (hmax : pid ≤ intMax) {env : Sys.Env} {n : Nat}
    (hstat : env.content n (n + 1) (.pidStat pid) = ⟨t.text (.pidStat pid), false⟩)
    {previous : List ProcessCpuCounter} {systemDeltaTicks : UInt64} {info : ProcessCpuInfo}
    (h : (readInfo env previous systemDeltaTicks pid).value n = some info) :
    Printed t.comm info.name := by
  unfold readInfo at h
  simp only [Trace.Calls.value_bind, Trace.Calls.value_pure, Option.map_eq_some_iff] at h
  obtain ⟨stat, hread, rfl⟩ := h
  rw [readProcessStat_value, hstat] at hread
  split_ifs at hread
  exact printed_stat t hpid hmax hread

theorem mem_parseCmdline {cap : Nat} {stream : Stream} {command : Bytes}
    (h : parseCmdline cap stream = some command) {b : UInt8} (hb : b ∈ command) :
    b ≠ 13 ∧ b ≠ 10 ∧ ∃ c ∈ stream.bytes, b = if c = 0 then 32 else c := by
  unfold parseCmdline at h
  dsimp only at h
  obtain ⟨-, h⟩ := Option.ite_none_left_eq_some.mp h
  rw [take_strcspn] at h
  rw [← Option.some.inj h] at hb
  have hstop := List.mem_takeWhile_imp hb
  simp only [List.contains_cons, List.contains_nil, Bool.or_false, Bool.not_or, Bool.and_eq_true,
    Bool.not_eq_true', beq_eq_false_iff_ne] at hstop
  obtain ⟨c, hc, rfl⟩ := List.mem_map.mp
    ((List.rdropWhile_prefix _ _).subset ((List.takeWhile_prefix _).subset hb))
  exact ⟨hstop.1, hstop.2, c, List.mem_of_mem_take hc, rfl⟩

theorem printed_cmdline {cap : Nat} {stream : Stream} {command : Bytes}
    (h : parseCmdline cap stream = some command) : PrintedLine stream.bytes command := by
  have hmem := fun b hb => @mem_parseCmdline cap stream command h b hb
  refine ⟨⟨fun h0 => ?_, fun hb => (hmem _ hb).2.1 rfl, fun b hb hcontrol => ?_⟩,
    fun hb => (hmem _ hb).1 rfl⟩
  · obtain ⟨-, -, c, -, hc⟩ := hmem _ h0
    split_ifs at hc with hzero
    · cases hc
    · exact hzero hc.symm
  · obtain ⟨-, -, c, hmem, rfl⟩ := hmem b hb
    split_ifs at hcontrol ⊢
    · cases hcontrol
    · exact hmem

theorem PrintedLine.mono {own own' s : Bytes} (h : PrintedLine own s) (hsub : own ⊆ own') :
    PrintedLine own' s :=
  ⟨⟨h.nul, h.newline, fun b hb hcontrol => hsub (h.own b hb hcontrol)⟩, h.cr⟩

theorem printed_commandOr {own : Bytes} {row : ProcessRow} {command : Option Bytes}
    (hname : PrintedLine own row.name)
    (hcommand : ∀ text, command = some text → PrintedLine own text) :
    PrintedLine own (commandOr row command) := by
  have hbrackets : PrintedLine own (snprintf processCmdlineMax (ascii "[" ++ row.name ++ ascii "]")) := by
    have hmem : ∀ b ∈ snprintf processCmdlineMax (ascii "[" ++ row.name ++ ascii "]"),
        b = 91 ∨ b ∈ row.name ∨ b = 93 := by
      intro b hb
      have hb := List.mem_of_mem_take hb
      simp only [ascii, List.mem_append] at hb
      simpa [or_assoc] using hb
    refine ⟨⟨fun h0 => ?_, fun h10 => ?_, fun b hb hcontrol => ?_⟩, fun h13 => ?_⟩
    · rcases hmem 0 h0 with h | h | h
      · cases h
      · exact hname.nul h
      · cases h
    · rcases hmem 10 h10 with h | h | h
      · cases h
      · exact hname.newline h
      · cases h
    · rcases hmem b hb with rfl | h | rfl
      · cases hcontrol
      · exact hname.own b h hcontrol
      · cases hcontrol
    · rcases hmem 13 h13 with h | h | h
      · cases h
      · exact hname.cr h
      · cases h
  unfold commandOr
  split
  · rename_i b text
    exact hcommand (b :: text) rfl
  · exact hbrackets

/-- The strings that the program prints of a task are single lines without a NUL, and have no
control codes but those that the process has given itself. -/
theorem printed_strings (hpid : 0 < pid) (hmax : pid ≤ intMax) :
    (∀ row, parseStatus pid ⟨t.text (.pidStatus pid), false⟩ = some row →
      PrintedLine t.comm row.name ∧
        ∀ command ∈ [none, parseCmdline processCmdlineMax ⟨t.text (.pidCmdline pid), false⟩],
          PrintedLine (t.comm ++ t.cmdline) (commandOr row command)) ∧
    (∀ info, processParseStatus ⟨t.text (.pidStatus pid), false⟩ pid = some info →
      PrintedLine t.comm info.name) ∧
    (∀ stat, parseStatStream ⟨t.text (.pidStat pid), false⟩ = some stat →
      Printed t.comm stat.name) ∧
    ∀ (env : Sys.Env) (n : Nat) (previous : List ProcessCpuCounter) (systemDeltaTicks : UInt64)
        (info : ProcessCpuInfo),
      env.content n (n + 1) (.pidStat pid) = ⟨t.text (.pidStat pid), false⟩ →
      (readInfo env previous systemDeltaTicks pid).value n = some info →
      Printed t.comm info.name := by
  refine ⟨fun row hrow => ⟨printed_row t hrow, fun command hcommand => ?_⟩,
    fun info => printed_info t, fun stat => printed_stat t hpid hmax,
    fun env n previous delta info hstat => printed_cpuInfo t hpid hmax hstat⟩
  refine printed_commandOr ((printed_row t hrow).mono (List.subset_append_left _ _))
    fun text htext => ?_
  simp only [List.mem_cons, List.not_mem_nil, or_false] at hcommand
  rcases hcommand with rfl | rfl
  · cases htext
  · exact (printed_cmdline htext).mono (List.subset_append_right _ _)

end Strings

def clearing : Task := Lives.plainTask [27, 91, 50, 74] (by decide) 0 100

theorem clearing_row : parseStatus 7 ⟨clearing.text (.pidStatus 7), false⟩ =
    some { ProcessList.emptyRow 7 with name := [27, 91, 50, 74] } := by decide +kernel

theorem clearing_stat : parseStatStream ⟨clearing.text (.pidStat 7), false⟩ =
    some ⟨7, [27, 91, 50, 74], 0, 100⟩ := by decide +kernel

theorem clearing_printed :
    (∃ row, parseStatus 7 ⟨clearing.text (.pidStatus 7), false⟩ = some row ∧ 27 ∈ row.name ∧
      27 ∈ commandOr row (parseCmdline processCmdlineMax ⟨clearing.text (.pidCmdline 7), false⟩)) ∧
    (∃ info, processParseStatus ⟨clearing.text (.pidStatus 7), false⟩ 7 = some info ∧
      27 ∈ info.name) ∧
    ∃ stat, parseStatStream ⟨clearing.text (.pidStat 7), false⟩ = some stat ∧ 27 ∈ stat.name := by
  have hinfo : processParseStatus ⟨clearing.text (.pidStatus 7), false⟩ 7 =
      some ⟨7, [27, 91, 50, 74], 0⟩ := by decide +kernel
  exact ⟨⟨_, clearing_row, by decide, by decide +kernel⟩, ⟨_, hinfo, by decide⟩,
    ⟨_, clearing_stat, by decide⟩⟩

theorem clearing_own :
    (∃ row, parseStatus 7 ⟨clearing.text (.pidStatus 7), false⟩ = some row ∧
      PrintedLine [27, 91, 50, 74] row.name) ∧
    ∃ stat, parseStatStream ⟨clearing.text (.pidStat 7), false⟩ = some stat ∧
      Printed [27, 91, 50, 74] stat.name :=
  have hown := @printed_strings clearing 7 (by decide) (by decide)
  ⟨⟨_, clearing_row, (hown.1 _ clearing_row).1⟩, ⟨_, clearing_stat, hown.2.2.1 _ clearing_stat⟩⟩

end RookieTop.ControlCodes
