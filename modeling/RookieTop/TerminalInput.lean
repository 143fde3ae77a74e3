import RookieTop.Sys

/-! Keys from the bytes of the terminal. A key is a byte or one of four codes
above 255; the decoder looks at no more than three bytes of an escape sequence. -/
namespace RookieTop.TerminalInput

open CLib Trace Sys

def inputNone : Int := 0
def inputUp : Int := 1000
def inputDown : Int := 1001
def inputEnter : Int := 1002
def inputEscape : Int := 1003

variable (env : Env)

def arrived (consumed n : Nat) : Bool :=
  match env.typed consumed with
  | none => false
  | some (time, _) => time ≤ n

/-- `wait_input`. Its timeout only matters for when `poll` answers, and that is
the machine's choice. -/
def waitInput (consumed : Nat) : Calls Int :=
  Calls.call fun n =>
    match env.pollFault n with
    | some .interrupted => 0
    | some .failed => -1
    | none => if arrived env consumed n then 1 else 0

/-- `read_byte`, whose callers only ask whether it returned 1. -/
def readByte (consumed : Nat) : Calls (Option UInt8) :=
  Calls.call fun n =>
    match env.readFault n with
    | some _ => none
    | none => if arrived env consumed n then (env.typed consumed).map Prod.snd else none

def terminalInputReadKey (consumed : Nat) : Calls (Int × Nat) := do
  let ready ← waitInput env consumed
  if ready ≤ 0 then return (if ready = 0 then inputNone else -1, consumed)
  match ← readByte env consumed with
  | none => return (inputNone, consumed)
  | some first =>
    if first = 13 ∨ first = 10 then return (inputEnter, consumed + 1)
    if first ≠ 27 then return (first.toNat, consumed + 1)
    if (← waitInput env (consumed + 1)) ≤ 0 then return (inputEscape, consumed + 1)
    match ← readByte env (consumed + 1) with
    | none => return (inputEscape, consumed + 1)
    | some second =>
      if second ≠ 91 then return (inputEscape, consumed + 2)
      if (← waitInput env (consumed + 2)) ≤ 0 then return (inputEscape, consumed + 2)
      match ← readByte env (consumed + 2) with
      | none => return (inputEscape, consumed + 2)
      | some third =>
        if third = 65 then return (inputUp, consumed + 3)
        if third = 66 then return (inputDown, consumed + 3)
        return (inputEscape, consumed + 3)

def readKeys : Nat → Nat → Calls (List Int × Nat)
  | 0, consumed => pure ([], consumed)
  | calls + 1, consumed => do
    let (key, consumed) ← terminalInputReadKey env consumed
    let (keys, consumed) ← readKeys calls consumed
    return (key :: keys, consumed)

/-- The machine whose terminal holds `s` from the start, and never fails. -/
def available (s : Bytes) : Env :=
  { env with
    typed := fun m => s[m]?.map fun b => (0, b)
    pollFault := fun _ => none
    readFault := fun _ => none }

def decodeKey : Bytes → Int × Nat
  | [] => (inputNone, 0)
  | first :: s =>
    if first = 13 ∨ first = 10 then (inputEnter, 1)
    else if first ≠ 27 then (first.toNat, 1)
    else
      match s with
      | [] => (inputEscape, 1)
      | second :: s =>
        if second ≠ 91 then (inputEscape, 2)
        else
          match s with
          | [] => (inputEscape, 2)
          | third :: _ =>
            (if third = 65 then inputUp else if third = 66 then inputDown else inputEscape, 3)

def decodeKeys : Nat → Bytes → List Int × Nat
  | 0, _ => ([], 0)
  | calls + 1, s =>
    let (key, taken) := decodeKey s
    let (keys, more) := decodeKeys calls (s.drop taken)
    (key :: keys, taken + more)

theorem waitInput_available (s : Bytes) (consumed n : Nat) :
    (waitInput (available env s) consumed).value n = if s.drop consumed = [] then 0 else 1 := by
  simp only [List.drop_eq_nil_iff]
  by_cases h : s.length ≤ consumed
  · simp [waitInput, available, arrived, h]
  · simp [waitInput, available, arrived, h, Nat.lt_of_not_le h]

theorem readByte_available (s : Bytes) (consumed n : Nat) :
    (readByte (available env s) consumed).value n = (s.drop consumed).head? := by
  rw [List.head?_drop]
  by_cases h : consumed < s.length <;> simp [readByte, available, arrived, h]

theorem terminalInputReadKey_available (s : Bytes) (consumed n : Nat) :
    (terminalInputReadKey (available env s) consumed).value n =
      ((decodeKey (s.drop consumed)).1, consumed + (decodeKey (s.drop consumed)).2) := by
  have hdrop : ∀ i, s.drop (consumed + i) = (s.drop consumed).drop i := fun i => by
    rw [List.drop_drop]
  generalize hrest : s.drop consumed = rest at hdrop
  unfold terminalInputReadKey
  match rest with
  | [] => simp [waitInput_available, hrest, decodeKey]
  | [first] =>
    by_cases hline : first = 13 ∨ first = 10
    · simp [waitInput_available, readByte_available, hrest, decodeKey, hline]
    by_cases hesc : first = 27
    · simp [waitInput_available, readByte_available, hrest, hdrop, decodeKey, hesc]
    · simp [waitInput_available, readByte_available, hrest, decodeKey, hline, hesc]
  | [first, second] =>
    by_cases hline : first = 13 ∨ first = 10
    · simp [waitInput_available, readByte_available, hrest, decodeKey, hline]
    by_cases hesc : first = 27
    · by_cases hopen : second = 91 <;>
        simp [waitInput_available, readByte_available, hrest, hdrop, decodeKey, hesc, hopen]
    · simp [waitInput_available, readByte_available, hrest, decodeKey, hline, hesc]
  | first :: second :: third :: rest =>
    by_cases hline : first = 13 ∨ first = 10
    · simp [waitInput_available, readByte_available, hrest, decodeKey, hline]
    by_cases hesc : first = 27
    · by_cases hopen : second = 91
      · by_cases hup : third = 65
        · simp [waitInput_available, readByte_available, hrest, hdrop, decodeKey, hesc, hopen, hup]
        by_cases hdown : third = 66 <;>
          simp [waitInput_available, readByte_available, hrest, hdrop, decodeKey, hesc, hopen,
            hup, hdown]
      · simp [waitInput_available, readByte_available, hrest, hdrop, decodeKey, hesc, hopen]
    · simp [waitInput_available, readByte_available, hrest, decodeKey, hline, hesc]

theorem readKeys_available (s : Bytes) (calls consumed n : Nat) :
    (readKeys (available env s) calls consumed).value n =
      ((decodeKeys calls (s.drop consumed)).1,
        consumed + (decodeKeys calls (s.drop consumed)).2) := by
  induction calls generalizing consumed n with
  | zero => simp [readKeys, decodeKeys]
  | succ calls ih =>
    simp [readKeys, decodeKeys, terminalInputReadKey_available, ih, List.drop_drop, Nat.add_assoc]

inductive Encoding where
  | byte (b : UInt8) (plain : b ≠ 27)
  | csi (params : Bytes) (final : UInt8) (inParams : ∀ p ∈ params, 32 ≤ p ∧ p ≤ 63)
    (isFinal : 64 ≤ final ∧ final ≤ 126)
  | ss3 (b : UInt8)

namespace Encoding

def bytes : Encoding → Bytes
  | byte b _ => [b]
  | csi params final _ _ => 27 :: 91 :: (params ++ [final])
  | ss3 b => [27, 79, b]

/-- A key is right for an encoding: the byte or ENTER for a single byte, the arrows
for theirs, and some key that is no character for every other sequence. -/
def Means : Encoding → Int → Prop
  | byte b _, key => key = if b = 13 ∨ b = 10 then inputEnter else b.toNat
  | csi params final _ _, key =>
    if params = [] ∧ final = 65 then key = inputUp
    else if params = [] ∧ final = 66 then key = inputDown
    else 255 < key
  | ss3 _, key => 255 < key

/-- Within the three bytes that one call looks at, and opened by `ESC [` if by ESC. -/
def Short : Encoding → Prop
  | byte _ _ => True
  | csi params _ _ _ => params = []
  | ss3 _ => False

end Encoding

open Encoding

def render (es : List Encoding) : Bytes := es.flatMap bytes

/-- One key event for each encoding: the calls return the right keys, each starts
with the first byte of its own encoding, and together they take every byte. -/
structure OneKeyEach (es : List Encoding) : Prop where
  keys : ∀ n, List.Forall₂ Means es
    ((readKeys (available env (render es)) es.length 0).value n).1
  aligned : ∀ i ≤ es.length, ∀ n,
    ((readKeys (available env (render es)) i 0).value n).2 = (render (es.take i)).length

theorem render_cons (e : Encoding) (es : List Encoding) :
    render (e :: es) = e.bytes ++ render es := List.flatMap_cons

theorem decodeKey_of_byte {b : UInt8} (h : b ≠ 27) (s : Bytes) :
    decodeKey (b :: s) = (if b = 13 ∨ b = 10 then inputEnter else b.toNat, 1) := by
  by_cases hline : b = 13 ∨ b = 10 <;> simp [decodeKey, hline, h]

theorem decodeKey_of_bracket (third : UInt8) (s : Bytes) :
    decodeKey (27 :: 91 :: third :: s) =
      (if third = 65 then inputUp else if third = 66 then inputDown else inputEscape, 3) := by
  simp [decodeKey]

theorem decodeKey_taken (s : Bytes) :
    (decodeKey s).2 ≤ 3 ∧
      (1 < (decodeKey s).2 → 255 < (decodeKey s).1 ∧ (decodeKey s).1 ≠ inputEnter) := by
  unfold decodeKey
  split
  · simp
  · split
    · simp
    split
    · simp
    split
    · simp
    split
    · simp [inputEscape, inputEnter]
    split
    · simp [inputEscape, inputEnter]
    · refine ⟨by simp, fun _ => ?_⟩
      dsimp only
      split
      · decide
      · split <;> decide

theorem taken_le_of_means {e : Encoding} {s : Bytes} (h : e.Means (decodeKey s).1) :
    (decodeKey s).2 ≤ e.bytes.length := by
  obtain ⟨hthree, hone⟩ := decodeKey_taken s
  cases e with
  | byte b plain =>
    have hb := b.toNat_lt
    by_contra hlong
    obtain ⟨hchar, henter⟩ := hone (by simpa [bytes] using hlong)
    simp only [Means] at h
    split at h
    · exact henter h
    · omega
  | csi params final _ _ =>
    simp only [bytes, List.length_cons, List.length_append, List.length_nil]
    omega
  | ss3 b => simpa [bytes] using hthree

theorem taken_le_of_forall₂ {es : List Encoding} {s : Bytes}
    (h : List.Forall₂ Means es (decodeKeys es.length s).1) :
    (decodeKeys es.length s).2 ≤ (render es).length := by
  induction es generalizing s with
  | nil => simp [decodeKeys]
  | cons e es ih =>
    simp only [List.length_cons, decodeKeys, List.forall₂_cons] at h ⊢
    have hfirst := taken_le_of_means h.1
    have hrest := ih h.2
    rw [render_cons, List.length_append]
    omega

theorem short_of_taken {e : Encoding} {s : Bytes}
    (h : (decodeKey (e.bytes ++ s)).2 = e.bytes.length) : e.Short := by
  cases e with
  | byte b plain => trivial
  | csi params final _ _ =>
    cases params with
    | nil => rfl
    | cons p params => simp [bytes, decodeKey_of_bracket] at h
  | ss3 b => simp [bytes, decodeKey] at h

theorem decodeKey_of_short {e : Encoding} (h : e.Short) (s : Bytes) :
    e.Means (decodeKey (e.bytes ++ s)).1 ∧ (decodeKey (e.bytes ++ s)).2 = e.bytes.length := by
  cases e with
  | byte b plain => simp [bytes, decodeKey_of_byte plain, Means]
  | csi params final _ isFinal =>
    obtain rfl : params = [] := h
    simp only [bytes, List.nil_append, List.cons_append, decodeKey_of_bracket]
    refine ⟨?_, rfl⟩
    simp only [Means, true_and]
    by_cases hup : final = 65
    · simp [hup]
    by_cases hdown : final = 66
    · simp [hdown]
    · simp [hup, hdown, inputEscape]
  | ss3 b => exact absurd h (by simp [Short])

theorem decodeKeys_of_short {es : List Encoding} (h : ∀ e ∈ es, e.Short) (s : Bytes) :
    List.Forall₂ Means es (decodeKeys es.length (render es ++ s)).1 ∧
      (decodeKeys es.length (render es ++ s)).2 = (render es).length := by
  induction es with
  | nil => simp [decodeKeys, render]
  | cons e es ih =>
    obtain ⟨hkey, htaken⟩ := decodeKey_of_short (h e (by simp)) (render es ++ s)
    obtain ⟨hkeys, hmore⟩ := ih fun e he => h e (by simp [he])
    simp only [List.length_cons, decodeKeys, render_cons, List.append_assoc, htaken,
      List.drop_left, List.forall₂_cons, List.length_append, hmore]
    exact ⟨⟨hkey, hkeys⟩, trivial⟩

theorem short_of_decodeKeys {es : List Encoding}
    (hkeys : List.Forall₂ Means es (decodeKeys es.length (render es)).1)
    (htaken : (decodeKeys es.length (render es)).2 = (render es).length) :
    ∀ e ∈ es, e.Short := by
  induction es with
  | nil => simp
  | cons e es ih =>
    simp only [List.length_cons, decodeKeys, render_cons, List.forall₂_cons,
      List.length_append] at hkeys htaken
    -- No call can make up for one that takes too little, so each takes exactly its own.
    have hfirst := taken_le_of_means hkeys.1
    have hrest := taken_le_of_forall₂ hkeys.2
    have heq : (decodeKey (e.bytes ++ render es)).2 = e.bytes.length := by omega
    rw [heq, List.drop_left] at hkeys htaken
    rw [List.forall_mem_cons]
    exact ⟨short_of_taken heq, ih hkeys.2 (by omega)⟩

/-- The decoder gives one key for each encoding just when it sees every one whole:
no sequence has parameters, and none is opened by `ESC O`. -/
theorem oneKeyEach_iff (es : List Encoding) : OneKeyEach env es ↔ ∀ e ∈ es, e.Short := by
  constructor
  · intro h
    have hkeys := h.keys 0
    have hall := h.aligned es.length le_rfl 0
    simp only [readKeys_available, List.drop_zero, Nat.zero_add, List.take_length] at hkeys hall
    exact short_of_decodeKeys hkeys hall
  · intro h
    constructor
    · intro n
      simpa [readKeys_available] using (decodeKeys_of_short h []).1
    · intro i hi n
      have hshort : ∀ e ∈ es.take i, e.Short := fun e he => h e (List.mem_of_mem_take he)
      have hsplit : render es = render (es.take i) ++ render (es.drop i) := by
        rw [render, render, render, ← List.flatMap_append, List.take_append_drop]
      have htaken := (decodeKeys_of_short hshort (render (es.drop i))).2
      rw [← hsplit, List.length_take, Nat.min_eq_left hi] at htaken
      simp [readKeys_available, htaken]

/-- The keypad's plus key in application mode, `ESC O k`: two events instead of
one, the second of which is the command to stop a process. -/
theorem keypad_stops :
    ((readKeys (available Env.idle (render [.ss3 107])) 2 0).value 0).1 = [inputEscape, 107] ∧
      ¬ OneKeyEach Env.idle [.ss3 107] := by
  refine ⟨by decide +kernel, fun h => ?_⟩
  have hall := h.aligned 1 le_rfl 0
  exact absurd hall (by decide +kernel)

end RookieTop.TerminalInput
