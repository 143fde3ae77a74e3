import RookieTop.CLib.Written
import RookieTop.Lives

/-! Which numbers the parser of a stat line returns: those the kernel has printed, and
for any other line those of the 14th, 15th and 22nd field, signs included. -/
namespace RookieTop.StatCounters

open CLib ProcDir ProcessCpu StatLine

/-- What the kernel prints of a process is read back, where its ticks have a sum. -/
theorem processCpuParseStat_render {pid : Nat} (hpid : 1 ≤ pid) (hmax : (pid : Int) ≤ intMax)
    {name : Bytes} (hname : 1 ≤ name.length ∧ name.length ≤ 63) (f : Fields) {rest : Bytes}
    (hclose : 41 ∉ rest) (hends : Ends rest) :
    processCpuParseStat (opening pid name ++ 41 :: (f.text ++ rest)) =
      if f.utime.toNat + f.stime.toNat < 2 ^ 64 then
        some ⟨pid, name, UInt64.ofNat (f.utime.toNat + f.stime.toNat), f.starttime⟩
      else none := by
  have htail : 41 ∉ f.text ++ rest := by
    have hfields : 41 ∉ f.text := fun h => (f.clean h).2.1 rfl
    simp [hfields, hclose]
  have hne : name ≠ [] := List.length_pos_iff.mp hname.1
  have hshort : ¬ processCpuNameMax ≤ name.length := by
    unfold processCpuNameMax
    omega
  rw [processCpuParseStat_line hpid hmax name htail, if_neg (by simp [hne, hshort]), f.scan hends]
  unfold statOf
  dsimp only
  by_cases hsum : f.utime.toNat + f.stime.toNat < 2 ^ 64
  · have hticks : f.utime + f.stime = UInt64.ofNat (f.utime.toNat + f.stime.toNat) := by
      simp
    rw [if_neg (by rw [Kernel.ticks_overflow]; omega), if_pos hsum, hticks]
  · rw [if_pos (by rw [Kernel.ticks_overflow]; omega), if_neg hsum]

theorem imitation_render :
    processCpuParseStat (opening 42 (ascii "a) R (b") ++
        41 :: ((Lives.plainFields 70 100).text ++ ascii " 0\n")) =
      some ⟨42, ascii "a) R (b", 70, 100⟩ :=
  processCpuParseStat_render (by decide) (by decide) (by decide) (Lives.plainFields 70 100)
    (by decide) (stops_cons.mpr (by decide))

/-- Field `k` of a line, the state behind the last parenthesis being the third. -/
def fieldAt (line : Bytes) (k : Nat) : Option Bytes :=
  (strrchr line 41).bind fun closing => (words (line.drop (closing + 1)))[k - 3]?

structure Headed (line : Bytes) (opening closing : Nat) : Prop where
  pid : (strtol line).range = false ∧ (strtol line).rest.length ≠ line.length ∧
    0 < (strtol line).value ∧ (strtol line).value ≤ intMax
  opens : ∃ offset, strchr (strtol line).rest 40 = some offset ∧
    opening = line.length - (strtol line).rest.length + offset
  closes : strrchr line 41 = some closing
  named : opening + 1 < closing
  short : closing - opening - 1 < processCpuNameMax

theorem Headed.counterIn {line : Bytes} {opening closing : Nat} (h : Headed line opening closing)
    (k : Nat) : (fieldAt line k).bind parseUintToken =
      counterIn (line.drop (closing + 1)) (k - 3) := by
  rw [fieldAt, h.closes, Option.bind_some, StatLine.counterIn]

theorem processCpuParseStat_eq_some_iff {line : Bytes} {stat : ProcessCpuStat} :
    processCpuParseStat line = some stat ↔
      ∃ opening closing, Headed line opening closing ∧
        statOf (strtol line).value ((line.drop (opening + 1)).take (closing - opening - 1))
          (scanFields 20 3 (line.drop (closing + 1)) ⟨none, none, none⟩) = some stat := by
  unfold processCpuParseStat
  dsimp only
  constructor
  · intro h
    split_ifs at h with hpid
    simp only [not_or, not_le, not_lt, Bool.not_eq_true] at hpid
    cases hopen : strchr (strtol line).rest 40 with
    | none => simp [hopen] at h
    | some offset =>
      cases hclose : strrchr line 41 with
      | none => simp [hopen, hclose] at h
      | some closing =>
        simp only [hopen, hclose] at h
        split_ifs at h with hname hsize
        exact ⟨_, closing, ⟨hpid, ⟨offset, hopen, rfl⟩, hclose, by omega, by omega⟩, h⟩
  · rintro ⟨opening, closing, ⟨hpid, ⟨offset, hopen, rfl⟩, hclose, hnamed, hshort⟩, h⟩
    have hgood : ¬ ((strtol line).range ∨ (strtol line).rest.length = line.length ∨
        (strtol line).value ≤ 0 ∨ intMax < (strtol line).value) := by
      simp only [not_or, not_le, not_lt, Bool.not_eq_true]
      exact hpid
    rw [if_neg hgood]
    simp only [hopen, hclose]
    rw [if_neg (by omega), if_neg (by omega)]
    exact h

theorem isspace_of_fieldAt {line w : Bytes} {k : Nat} (h : fieldAt line k = some w) :
    ∀ b ∈ w, isspace b = false := by
  obtain ⟨closing, -, hw⟩ := Option.bind_eq_some_iff.mp h
  exact isspace_of_mem_words (List.mem_of_getElem? hw)

def Decimal (token : Bytes) : Prop := token ≠ [] ∧ ∀ b ∈ token, isdigit b = true

/-- A token that is taken for a counter: a sign perhaps, and digits of a 64-bit value. -/
structure CounterToken (token : Bytes) (w : Written) : Prop where
  text : token = w.sign ++ w.digits
  fits : w.value < 2 ^ 64
  short : token.length < 32

theorem CounterToken.decimal_iff {token : Bytes} {w : Written} (h : CounterToken token w) :
    Decimal token ↔ w.sign = [] := by
  constructor
  · intro hdecimal
    rcases w.signs with hsign | hsign | hsign
    · exact hsign
    · exact absurd (hdecimal.2 43 (by simp [h.text, hsign])) (by decide)
    · exact absurd (hdecimal.2 45 (by simp [h.text, hsign])) (by decide)
  · intro hsign
    rw [h.text, hsign, List.nil_append]
    exact ⟨w.ne, w.digit⟩

theorem exists_counterToken {token : Bytes} (hspace : ∀ b ∈ token, isspace b = false)
    {v : UInt64} (h : parseUintToken token = some v) :
    ∃ w, CounterToken token w ∧ w.unsigned = v := by
  unfold parseUintToken at h
  dsimp only at h
  split_ifs at h with hlen hend
  unfold strtoull at h hend
  cases hnum : numeral? token with
  | none =>
    simp only [hnum, not_or, not_not] at hend
    exact absurd (Or.inl (by rw [hend.2, List.length_nil])) hlen
  | some m =>
    simp only [hnum, decide_eq_true_eq, not_or, not_le, not_not] at hend h
    obtain ⟨w, htext, -, hnegative, hvalue⟩ := Written.exists_text hnum
    rw [hend.2, List.append_nil] at htext
    have hblanks : w.blanks = [] := by
      rw [List.eq_nil_iff_forall_not_mem]
      intro b hb
      have hmem : b ∈ token := htext ▸ List.mem_append_left _ hb
      exact absurd (w.blank b hb) (by rw [hspace b hmem]; exact Bool.false_ne_true)
    refine ⟨w, ⟨?_, hvalue ▸ hend.1, not_le.mp fun hlong => hlen (Or.inr hlong)⟩, ?_⟩
    · rw [htext, Written.text, hblanks, List.nil_append]
    · rw [← Option.some.inj h]
      unfold Written.unsigned Numeral.unsigned
      rw [hnegative, hvalue]

theorem parseUintToken_counterToken {token : Bytes} {w : Written} (h : CounterToken token w) :
    parseUintToken token = some w.unsigned := by
  have hnum : numeral? token = some ⟨decide (w.sign = [45]), w.value, []⟩ := by
    have hread := Written.numeral?_text { w with blanks := [], blank := nofun } stops_nil
    rw [List.append_nil] at hread
    rw [h.text]
    exact hread
  have hlen : ¬ (token.length = 0 ∨ 32 ≤ token.length) := by
    have hdigits := List.length_pos_of_ne_nil w.ne
    have hshort := h.short
    have hlength := congrArg List.length h.text
    rw [List.length_append] at hlength
    omega
  have hrange : ¬ 2 ^ 64 ≤ w.value := not_le.mpr h.fits
  unfold parseUintToken strtoull
  rw [if_neg hlen]
  simp only [hnum, hrange, decide_false, Bool.false_eq_true, ne_eq, not_true_eq_false, or_self,
    if_false]
  rfl

def CounterAt (line : Bytes) (k : Nat) (w : Written) : Prop :=
  ∃ token, fieldAt line k = some token ∧ CounterToken token w

structure Counted (line : Bytes) (utime stime starttime : Written) : Prop where
  headed : ∃ opening closing, Headed line opening closing
  user : CounterAt line 14 utime
  system : CounterAt line 15 stime
  start : CounterAt line 22 starttime
  sum : utime.unsigned.toNat + stime.unsigned.toNat < 2 ^ 64

theorem counterIn_iff {line : Bytes} {opening closing : Nat}
    (h : Headed line opening closing) {k : Nat} {v : UInt64} :
    counterIn (line.drop (closing + 1)) (k - 3) = some v ↔
      ∃ w, CounterAt line k w ∧ w.unsigned = v := by
  rw [← h.counterIn, Option.bind_eq_some_iff]
  constructor
  · rintro ⟨token, htoken, hparse⟩
    obtain ⟨w, hw, hv⟩ := exists_counterToken (isspace_of_fieldAt htoken) hparse
    exact ⟨w, ⟨token, htoken, hw⟩, hv⟩
  · rintro ⟨w, ⟨token, htoken, hw⟩, hv⟩
    exact ⟨token, htoken, hv ▸ parseUintToken_counterToken hw⟩

theorem statOf_eq_some_iff {pid : Int} {name : Bytes} {found : Option StatFields}
    {stat : ProcessCpuStat} :
    statOf pid name found = some stat ↔
      ∃ utime stime starttime, found = some ⟨some utime, some stime, some starttime⟩ ∧
        utime.toNat + stime.toNat < 2 ^ 64 ∧ stat = ⟨pid, name, utime + stime, starttime⟩ := by
  constructor
  · intro h
    unfold statOf at h
    split at h
    · rename_i utime stime starttime
      split_ifs at h with hsum
      rw [Kernel.ticks_overflow, not_le] at hsum
      exact ⟨utime, stime, starttime, rfl, hsum, (Option.some.inj h).symm⟩
    · cases h
  · rintro ⟨utime, stime, starttime, rfl, hsum, rfl⟩
    unfold statOf
    dsimp only
    rw [if_neg (by rw [Kernel.ticks_overflow]; omega)]

theorem counted_of_parse {line : Bytes} {stat : ProcessCpuStat}
    (h : processCpuParseStat line = some stat) :
    ∃ utime stime starttime, Counted line utime stime starttime ∧
      stat.ticks.toNat = utime.unsigned.toNat + stime.unsigned.toNat ∧
      stat.starttime = starttime.unsigned := by
  obtain ⟨opening, closing, hhead, hstat⟩ := processCpuParseStat_eq_some_iff.mp h
  obtain ⟨utime, stime, starttime, hfound, hsum, rfl⟩ := statOf_eq_some_iff.mp hstat
  rw [scanFields_eq] at hfound
  obtain ⟨_, hu, hfound⟩ := Option.bind_eq_some_iff.mp hfound
  obtain ⟨_, hv, hfound⟩ := Option.bind_eq_some_iff.mp hfound
  obtain ⟨_, hw, hfound⟩ := Option.map_eq_some_iff.mp hfound
  cases hfound
  obtain ⟨u, huser, rfl⟩ := (counterIn_iff hhead (k := 14)).mp hu
  obtain ⟨v, hsystem, rfl⟩ := (counterIn_iff hhead (k := 15)).mp hv
  obtain ⟨w, hstart, rfl⟩ := (counterIn_iff hhead (k := 22)).mp hw
  refine ⟨u, v, w, ⟨⟨opening, closing, hhead⟩, huser, hsystem, hstart, hsum⟩, ?_, rfl⟩
  rw [UInt64.toNat_add, Nat.mod_eq_of_lt hsum]

theorem parse_of_counted {line : Bytes} {utime stime starttime : Written}
    (h : Counted line utime stime starttime) :
    ∃ stat, processCpuParseStat line = some stat := by
  obtain ⟨opening, closing, hhead⟩ := h.headed
  have hu := (counterIn_iff hhead).mpr ⟨utime, h.user, rfl⟩
  have hv := (counterIn_iff hhead).mpr ⟨stime, h.system, rfl⟩
  have hw := (counterIn_iff hhead).mpr ⟨starttime, h.start, rfl⟩
  refine ⟨_, processCpuParseStat_eq_some_iff.mpr ⟨opening, closing, hhead,
    statOf_eq_some_iff.mpr ⟨_, _, starttime.unsigned, ?_, h.sum, rfl⟩⟩⟩
  rw [scanFields_eq, hu, Option.bind_some, hv, Option.bind_some, hw, Option.map_some]

/-- What is returned stands in the line as plain numbers, and a line with anything else in
the place of one of them is refused. -/
structure NeverInvents (line : Bytes) : Prop where
  counted : ∀ stat, processCpuParseStat line = some stat →
    ∃ utime stime starttime, fieldAt line 14 = some utime ∧ fieldAt line 15 = some stime ∧
      fieldAt line 22 = some starttime ∧ Decimal utime ∧ Decimal stime ∧ Decimal starttime ∧
      stat.ticks.toNat = digitsValue utime + digitsValue stime ∧
      stat.starttime.toNat = digitsValue starttime
  refused : ∀ k, k = 14 ∨ k = 15 ∨ k = 22 → ∀ token, fieldAt line k = some token →
    ¬ (Decimal token ∧ digitsValue token < 2 ^ 64) → processCpuParseStat line = none

/-- A line that is right in all else, but for a sign before one of the counters. -/
def SignedCounter (line : Bytes) : Prop :=
  ∃ utime stime starttime, Counted line utime stime starttime ∧
    (utime.sign ≠ [] ∨ stime.sign ≠ [] ∨ starttime.sign ≠ [])

theorem CounterAt.plain {line : Bytes} {k : Nat} {w : Written} (h : CounterAt line k w)
    (hsign : w.sign = []) :
    ∃ token, fieldAt line k = some token ∧ Decimal token ∧
      digitsValue token = w.unsigned.toNat := by
  obtain ⟨token, htoken, hcounter⟩ := h
  have hplain : w.Plain := ⟨hsign, hcounter.fits⟩
  refine ⟨token, htoken, hcounter.decimal_iff.mpr hsign, ?_⟩
  rw [hplain.toNat, hcounter.text, hsign, List.nil_append]
  rfl

theorem CounterAt.refused {line : Bytes} (h : NeverInvents line) {k : Nat}
    (hk : k = 14 ∨ k = 15 ∨ k = 22) {w : Written} (hw : CounterAt line k w)
    (hsign : w.sign ≠ []) : processCpuParseStat line = none := by
  obtain ⟨token, htoken, hcounter⟩ := hw
  exact h.refused k hk token htoken fun hdecimal => hsign (hcounter.decimal_iff.mp hdecimal.1)

/-- `strtoull` takes a sign, and the parser does not look for one. -/
theorem neverInvents_iff (line : Bytes) : NeverInvents line ↔ ¬ SignedCounter line := by
  constructor
  · rintro hnever ⟨utime, stime, starttime, hcounted, hsign⟩
    obtain ⟨stat, hstat⟩ := parse_of_counted hcounted
    have hnone : processCpuParseStat line = none := by
      rcases hsign with hsign | hsign | hsign
      · exact hcounted.user.refused hnever (Or.inl rfl) hsign
      · exact hcounted.system.refused hnever (Or.inr (Or.inl rfl)) hsign
      · exact hcounted.start.refused hnever (Or.inr (Or.inr rfl)) hsign
    rw [hnone] at hstat
    cases hstat
  · intro hplain
    have hfields : ∀ stat, processCpuParseStat line = some stat →
        ∃ utime stime starttime, fieldAt line 14 = some utime ∧ fieldAt line 15 = some stime ∧
          fieldAt line 22 = some starttime ∧ Decimal utime ∧ Decimal stime ∧ Decimal starttime ∧
          stat.ticks.toNat = digitsValue utime + digitsValue stime ∧
          stat.starttime.toNat = digitsValue starttime := by
      intro stat hstat
      obtain ⟨utime, stime, starttime, hcounted, hticks, hstarttime⟩ := counted_of_parse hstat
      have hnone : utime.sign = [] ∧ stime.sign = [] ∧ starttime.sign = [] := by
        by_contra hsign
        refine hplain ⟨utime, stime, starttime, hcounted, ?_⟩
        tauto
      obtain ⟨u, hu, hudec, huval⟩ := hcounted.user.plain hnone.1
      obtain ⟨v, hv, hvdec, hvval⟩ := hcounted.system.plain hnone.2.1
      obtain ⟨w, hw, hwdec, hwval⟩ := hcounted.start.plain hnone.2.2
      exact ⟨u, v, w, hu, hv, hw, hudec, hvdec, hwdec, by rw [hticks, huval, hvval],
        by rw [hstarttime, hwval]⟩
    refine ⟨hfields, fun k hk token htoken hbad => ?_⟩
    by_contra hne
    obtain ⟨stat, hstat⟩ := Option.ne_none_iff_exists'.mp hne
    obtain ⟨u, v, w, hu, hv, hw, hudec, hvdec, hwdec, hticks, hstarttime⟩ := hfields stat hstat
    have hticks_lt := stat.ticks.toNat_lt
    have hstart_lt := stat.starttime.toNat_lt
    rcases hk with rfl | rfl | rfl
    · cases hu.symm.trans htoken
      exact hbad ⟨hudec, by omega⟩
    · cases hv.symm.trans htoken
      exact hbad ⟨hvdec, by omega⟩
    · cases hw.symm.trans htoken
      exact hbad ⟨hwdec, by omega⟩

/-- A user time of -1 is returned as the largest number of ticks. -/
def negativeLine : Bytes := ascii "7 (a) S 1 1 1 0 -1 0 0 0 0 0 -1 0 0 0 20 0 1 0 100"

theorem negative_invents : ¬ NeverInvents negativeLine := by
  intro h
  have hstat : processCpuParseStat negativeLine =
      some ⟨7, ascii "a", 18446744073709551615, 100⟩ := by decide +kernel
  obtain ⟨utime, stime, starttime, hfield, -, -, hdecimal, -⟩ := h.counted _ hstat
  have htoken : fieldAt negativeLine 14 = some (ascii "-1") := by decide +kernel
  cases htoken.symm.trans hfield
  exact absurd hdecimal.2 (by decide)

end RookieTop.StatCounters
