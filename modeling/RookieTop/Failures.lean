import RookieTop.NetworkLines

/-! What the parsers leave in the memory of their caller when they return -1. -/
namespace RookieTop.Failures

open CLib Cpu Memory Process ProcessCpu Outputs NetworkLines

open Network hiding field

inductive ParserCall where
  | cpuParseLine (line : Bytes) (out : CpuSample)
  | memoryParse (stream : Stream) (out : MemorySample)
  | processParseStatus (stream : Stream) (pid : Int) (out : ProcessInfo)
  | processCpuParseStat (line : Bytes) (out : ProcessCpuStat)
  | networkParseLine (line : Bytes) (nameCap : Nat) (out : LineOut)
      (fits : nameCap ≤ out.name.length)

def Keeps {Mem : Type} (x : Stores Mem Unit) (m : Mem) : Prop := (x m).1 = none → (x m).2 = m

def Untouched : ParserCall → Prop
  | .cpuParseLine line out => Keeps (cpuParseLineInto line) out
  | .memoryParse stream out => Keeps (memoryParseInto stream) out
  | .processParseStatus stream pid out => Keeps (processParseStatusInto stream pid) out
  | .processCpuParseStat line out => Keeps (processCpuParseStatInto line) out
  | .networkParseLine line nameCap out _ => Keeps (networkParseLineInto line nameCap) out

/-- A line whose name fits its buffer, and is not there already, but not nine numbers follow. -/
def Spoils : ParserCall → Prop
  | .networkParseLine line nameCap out _ => ∃ name rest, Headed line name rest ∧
      name.length < nameCap ∧ ¬ Numbered 9 rest ∧ ¬ (name ++ [0]) <+: out.name
  | _ => False

theorem copied_eq_self_iff (text buffer : Bytes) :
    copied text buffer = buffer ↔ (text ++ [0]) <+: buffer := by
  constructor
  · intro h
    exact ⟨buffer.drop (text.length + 1), by rw [List.append_assoc, List.singleton_append]; exact h⟩
  · rintro ⟨t, rfl⟩
    rw [copied, List.append_assoc, List.singleton_append, List.drop_length_add_append]
    rfl

theorem networkParseLineInto_headed {line name rest : Bytes} (h : Headed line name rest)
    {nameCap : Nat} (hcap : name.length < nameCap) (out : LineOut) :
    networkParseLineInto line nameCap out =
      if (sscanf (u64Fields 16) rest).length < 9 then
        (none, { out with name := copied name out.name })
      else
        (some (), ⟨copied name out.name, Network.field (sscanf (u64Fields 16) rest) 0,
          Network.field (sscanf (u64Fields 16) rest) 8⟩) := by
  obtain ⟨colon, hchr, hname, hrest⟩ := h.cut
  obtain ⟨-, -, -, -, -, hne, -⟩ := h
  have hfits : ¬ (name.length = 0 ∨ nameCap ≤ name.length) := by
    rw [not_or, List.length_eq_zero_iff]
    exact ⟨hne, Nat.not_le_of_lt hcap⟩
  unfold networkParseLineInto
  rw [hchr]
  dsimp only
  rw [hname, hrest, if_neg hfits]
  simp only [bind, Stores.store]
  split_ifs
  · rfl
  · rfl

theorem networkParseLineInto_unheaded {line : Bytes} {nameCap : Nat}
    (h : ∀ name rest, Headed line name rest → nameCap ≤ name.length) (out : LineOut) :
    networkParseLineInto line nameCap out = (none, out) := by
  unfold networkParseLineInto
  cases hchr : strchr line 58 with
  | none => rfl
  | some colon =>
    dsimp only
    rw [if_pos]
    · rfl
    · by_contra hfits
      rw [not_or, List.length_eq_zero_iff] at hfits
      exact hfits.2 (h _ _ (headed_of_strchr hchr hfits.1))

theorem networkParseLine_keeps (line : Bytes) (nameCap : Nat) (out : LineOut) :
    Keeps (networkParseLineInto line nameCap) out ↔
      ¬ ∃ name rest, Headed line name rest ∧ name.length < nameCap ∧ ¬ Numbered 9 rest ∧
        ¬ (name ++ [0]) <+: out.name := by
  by_cases hhead : ∃ name rest, Headed line name rest ∧ name.length < nameCap
  · obtain ⟨name, rest, hheaded, hcap⟩ := hhead
    have hsame : ∀ name' rest', Headed line name' rest' → name' = name ∧ rest' = rest := by
      intro name' rest' hheaded'
      obtain ⟨colon, hchr, hname, hrest⟩ := hheaded.cut
      obtain ⟨colon', hchr', hname', hrest'⟩ := hheaded'.cut
      cases Option.some.inj (hchr.symm.trans hchr')
      exact ⟨hname'.symm.trans hname, hrest'.symm.trans hrest⟩
    have honly : (∃ name rest, Headed line name rest ∧ name.length < nameCap ∧
        ¬ Numbered 9 rest ∧ ¬ (name ++ [0]) <+: out.name) ↔
        ¬ Numbered 9 rest ∧ ¬ (name ++ [0]) <+: out.name := by
      constructor
      · rintro ⟨name', rest', hheaded', -, hspoils⟩
        obtain ⟨rfl, rfl⟩ := hsame name' rest' hheaded'
        exact hspoils
      · exact fun hspoils => ⟨name, rest, hheaded, hcap, hspoils⟩
    have hnine := numbered_iff (k := 9) (n := 16) (by decide) (by decide) rest
    rw [honly, Keeps, networkParseLineInto_headed hheaded hcap, not_and_or, not_not, not_not]
    by_cases hscan : (sscanf (u64Fields 16) rest).length < 9
    · rw [if_pos hscan, hnine, ← copied_eq_self_iff]
      constructor
      · exact fun h => Or.inr (congrArg LineOut.name (h rfl))
      · rintro (h | h) -
        · exact absurd h (Nat.not_le_of_lt hscan)
        · rw [h]
    · rw [if_neg hscan]
      exact iff_of_true (fun h => by cases h) (Or.inl (hnine.mpr (Nat.le_of_not_lt hscan)))
  · have hcap : ∀ name rest, Headed line name rest → nameCap ≤ name.length := by
      intro name rest hheaded
      by_contra hlt
      exact hhead ⟨name, rest, hheaded, Nat.lt_of_not_le hlt⟩
    refine iff_of_true (fun _ => ?_) ?_
    · rw [networkParseLineInto_unheaded hcap]
    · rintro ⟨name, rest, hheaded, hlt, -⟩
      exact hhead ⟨name, rest, hheaded, hlt⟩

/-- Only `network_parse_line` stores something before it returns -1, where a name without its
nine numbers is new to the buffer. -/
theorem untouched_iff (call : ParserCall) : Untouched call ↔ ¬ Spoils call := by
  cases call with
  | cpuParseLine line out => exact iff_of_true (cpuParseLineInto_atomic line out) not_false
  | memoryParse stream out => exact iff_of_true (memoryParseInto_atomic stream out) not_false
  | processParseStatus stream pid out =>
    exact iff_of_true (processParseStatusInto_atomic stream pid out) not_false
  | processCpuParseStat line out =>
    exact iff_of_true (processCpuParseStatInto_atomic line out) not_false
  | networkParseLine line nameCap out fits => exact networkParseLine_keeps line nameCap out

/-- Two numbers behind the colon: the result is -1, and the buffer holds `eth0`. -/
theorem eth0_spoiled :
    ¬ Untouched (.networkParseLine (ascii "eth0: 1 2\n") 64 ⟨List.replicate 64 0, 0, 0⟩
      (by simp)) := by
  intro h
  have hname := congrArg LineOut.name (h rfl)
  exact absurd hname (by decide +kernel)

end RookieTop.Failures
