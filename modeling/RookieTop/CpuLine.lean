import RookieTop.CLib.Written
import RookieTop.Cpu
import RookieTop.Outputs

/-! The lines that `cpu_parse_line` takes for the aggregate line of `/proc/stat`. Blanks are
what `isspace` takes for them, before the numbers and behind the word `cpu` alike. -/
namespace RookieTop.CpuLine

open CLib Outputs

open Cpu hiding field

def Rowed (line : Bytes) (ws : List Written) : Prop :=
  ∃ rest, line = ascii "cpu" ++ (writtenText ws ++ rest) ∧ Joined ws ∧ Stops isdigit rest

/-- The word `cpu` and four numbers or more, each behind blanks and below 2^64. -/
def Aggregate (line : Bytes) (ws : List Written) : Prop :=
  4 ≤ ws.length ∧ (∀ w ∈ ws, w.Plain ∧ w.blanks ≠ []) ∧
    ∃ trail, line = ascii "cpu" ++ (writtenText ws ++ trail) ∧ ∀ b ∈ trail, isspace b = true

/-- The first eight numbers, with 0 for those that are missing. -/
def firstEight (ws : List Written) : CpuSample :=
  let number (i : Nat) : UInt64 := UInt64.ofNat ((ws[i]?.map Written.value).getD 0)
  { user := number 0
    nice := number 1
    system := number 2
    idle := number 3
    iowait := number 4
    irq := number 5
    softirq := number 6
    steal := number 7 }

def Alone (line : Bytes) : Prop := ∃ b ∈ (line.drop 3).head?, isspace b = true

def Heads (line : Bytes) (sample : CpuSample) : Prop :=
  Alone line ∧ ∃ ws, Rowed line ws ∧ (∀ w ∈ ws, w.sign = []) ∧
    ws.map Written.value =
      [sample.user.toNat, sample.nice.toNat, sample.system.toNat, sample.idle.toNat]

structure Exact (line : Bytes) : Prop where
  accepts : ∀ ws out, Aggregate line ws →
    cpuParseLineInto line out = (some (), firstEight ws)
  only : ∀ out sample, cpuParseLineInto line out = (some (), sample) → Heads line sample
  rejects : ∀ out, (cpuParseLineInto line out).1 = none → (cpuParseLineInto line out).2 = out

/-- Four numerals behind `cpu`, but no blank before the first, or a number that has a sign or
does not fit. -/
def Lax (line : Bytes) : Prop :=
  ∃ ws, Rowed line ws ∧ ws.length = 4 ∧ (¬ Alone line ∨ ∃ w ∈ ws, ¬ w.Plain)

theorem sscanf_cpuFormat (line : Bytes) :
    sscanf cpuFormat (ascii "cpu" ++ line) = sscanf (u64Fields 8) line := by
  rw [cpuFormat, sscanf_literals, startsWith_append, if_pos rfl, List.drop_left]

theorem field_map (ws : List Written) (i : Nat) :
    Cpu.field (ws.map fun w => .u64 w.unsigned) i = (ws[i]?.map Written.unsigned).getD 0 := by
  unfold Cpu.field
  rw [List.getElem?_map]
  cases ws[i]? <;> rfl

theorem cpuParseLineInto_eq (line : Bytes) (out : CpuSample) :
    cpuParseLineInto line out =
      match cpuParseLine line with
      | none => (none, out)
      | some sample => (some (), sample) := by
  rw [(cpuParseLineInto_atomic line).eq, cpuParseLineInto_outcome]
  cases cpuParseLine line <;> rfl

theorem Aggregate.joined {line : Bytes} {ws : List Written} (h : Aggregate line ws) : Joined ws :=
  fun w hw => Or.inl (h.2.1 w (List.mem_of_mem_tail hw)).2

theorem cpuParseLine_aggregate {line : Bytes} {ws : List Written} (h : Aggregate line ws) :
    cpuParseLine line = some (firstEight ws) := by
  have hjoined := h.joined
  obtain ⟨hfour, hplain, trail, rfl, htrail⟩ := h
  have hscan : sscanf (u64Fields 8) (writtenText ws ++ trail) =
      (ws.take 8).map fun w => .u64 w.unsigned := by
    rw [sscanf_writtenText 8 hjoined (stops_isdigit_of_blank htrail),
      sscanf_none (numeral?_blank htrail), List.append_nil]
  have hnumber : ∀ i < 8, Cpu.field ((ws.take 8).map fun w => .u64 w.unsigned) i =
      UInt64.ofNat ((ws[i]?.map Written.value).getD 0) := by
    intro i hi
    rw [field_map, List.getElem?_take_of_lt hi]
    cases hw : ws[i]? with
    | none => rfl
    | some w => exact (hplain w (List.mem_of_getElem? hw)).1.unsigned
  unfold cpuParseLine
  rw [sscanf_cpuFormat, hscan]
  rw [if_neg (by rw [List.length_map, List.length_take]; omega)]
  simp only [hnumber 0 (by decide), hnumber 1 (by decide), hnumber 2 (by decide),
    hnumber 3 (by decide), hnumber 4 (by decide), hnumber 5 (by decide), hnumber 6 (by decide),
    hnumber 7 (by decide), firstEight]

theorem cpuParseLine_some {line : Bytes} {sample : CpuSample} (h : cpuParseLine line = some sample) :
    ∃ ws, Rowed line ws ∧ ws.length = 4 := by
  unfold cpuParseLine at h
  dsimp only at h
  split_ifs at h with hfour
  have hstart : startsWith line (ascii "cpu") = true := by
    by_contra hnot
    rw [cpuFormat, sscanf_literals, if_neg hnot] at hfour
    exact hfour (by decide)
  obtain ⟨s, rfl⟩ := List.isPrefixOf_iff_prefix.mp hstart
  rw [sscanf_cpuFormat, Nat.not_lt, ← numbered_iff (by decide) (by decide)] at hfour
  obtain ⟨ws, rest, rfl, hlen, hjoined, hstops⟩ := hfour
  exact ⟨ws, ⟨rest, rfl, hjoined, hstops⟩, hlen⟩

theorem cpuParseLine_rowed {line : Bytes} {ws : List Written} (h : Rowed line ws)
    (hlen : ws.length = 4) :
    ∃ sample, cpuParseLine line = some sample ∧
      ws.map Written.unsigned = [sample.user, sample.nice, sample.system, sample.idle] := by
  obtain ⟨rest, rfl, hjoined, hstops⟩ := h
  have hscan := sscanf_writtenText 8 hjoined hstops
  rw [List.take_of_length_le (by omega)] at hscan
  unfold cpuParseLine
  rw [sscanf_cpuFormat, hscan]
  rw [if_neg (by rw [List.length_append, List.length_map]; omega)]
  refine ⟨_, rfl, ?_⟩
  match ws, hlen with
  | [a, b, c, d], _ => rfl

theorem Rowed.unique {line : Bytes} {ws ws' : List Written} (h : Rowed line ws)
    (h' : Rowed line ws') (hlen : ws.length = ws'.length) : ws = ws' := by
  obtain ⟨rest, heq, hjoined, hstops⟩ := h
  obtain ⟨rest', heq', hjoined', hstops'⟩ := h'
  rw [heq, List.append_cancel_left_eq] at heq'
  exact writtenText_inj hlen hjoined hjoined' hstops hstops' heq'

theorem heads_of_not_lax {line : Bytes} {sample : CpuSample} (hlax : ¬ Lax line)
    (h : cpuParseLine line = some sample) : Heads line sample := by
  obtain ⟨ws, hrow, hlen⟩ := cpuParseLine_some h
  have halone : Alone line := by
    by_contra hnot
    exact hlax ⟨ws, hrow, hlen, Or.inl hnot⟩
  have hplain : ∀ w ∈ ws, w.Plain := by
    intro w hw
    by_contra hnot
    exact hlax ⟨ws, hrow, hlen, Or.inr ⟨w, hw, hnot⟩⟩
  obtain ⟨sample', hsample', hvalues⟩ := cpuParseLine_rowed hrow hlen
  cases Option.some.inj (h.symm.trans hsample')
  refine ⟨halone, ws, hrow, fun w hw => (hplain w hw).1, ?_⟩
  have hnat : ws.map Written.value = (ws.map Written.unsigned).map UInt64.toNat := by
    rw [List.map_map]
    exact List.map_congr_left fun w hw => (hplain w hw).toNat.symm
  rw [hnat, hvalues]
  rfl

theorem not_lax_of_heads {line : Bytes}
    (honly : ∀ sample, cpuParseLine line = some sample → Heads line sample) : ¬ Lax line := by
  rintro ⟨ws, hrow, hlen, hbad⟩
  obtain ⟨sample, hsample, -⟩ := cpuParseLine_rowed hrow hlen
  obtain ⟨halone, ws', hrow', hsign, hvalues⟩ := honly sample hsample
  have hlen' : ws'.length = 4 := by
    have := congrArg List.length hvalues
    rwa [List.length_map] at this
  obtain rfl := hrow.unique hrow' (hlen.trans hlen'.symm)
  rcases hbad with hnot | ⟨w, hw, hnot⟩
  · exact hnot halone
  · have hmem : w.value ∈ ws.map Written.value := List.mem_map_of_mem hw
    rw [hvalues] at hmem
    have hlt : w.value < 2 ^ 64 := by
      simp only [List.mem_cons, List.not_mem_nil, or_false] at hmem
      rcases hmem with h | h | h | h <;> rw [h] <;> exact UInt64.toNat_lt _
    exact hnot ⟨hsign w hw, hlt⟩

/-- Every aggregate line is taken for what it is, and the others that are accepted are the lax
ones. -/
theorem exact_iff (line : Bytes) : Exact line ↔ ¬ Lax line := by
  constructor
  · intro h
    refine not_lax_of_heads fun sample hsample => h.only ⟨0, 0, 0, 0, 0, 0, 0, 0⟩ sample ?_
    rw [cpuParseLineInto_eq, hsample]
  · intro hlax
    refine ⟨fun ws out hws => ?_, fun out sample h => ?_, cpuParseLineInto_atomic line⟩
    · rw [cpuParseLineInto_eq, cpuParseLine_aggregate hws]
    · rw [cpuParseLineInto_eq] at h
      cases hparse : cpuParseLine line with
      | none =>
        rw [hparse] at h
        cases h
      | some sample' =>
        rw [hparse] at h
        cases h
        exact heads_of_not_lax hlax hparse

/-- The line of the first core is accepted, with its number for the user time. -/
theorem cpu0_accepted : ¬ Exact (ascii "cpu0 50 1 15 200\n") := by
  intro h
  have haccepted : cpuParseLineInto (ascii "cpu0 50 1 15 200\n") ⟨0, 0, 0, 0, 0, 0, 0, 0⟩ =
      (some (), ⟨0, 50, 1, 15, 200, 0, 0, 0⟩) := by decide +kernel
  obtain ⟨b, hb, hblank⟩ := (h.only _ _ haccepted).1
  cases Option.some.inj hb
  exact absurd hblank (by decide)

end RookieTop.CpuLine
