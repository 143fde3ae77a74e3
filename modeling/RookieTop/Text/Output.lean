import RookieTop.CLib.Printf

/-! Output for a terminal: plain text, and the control sequences that stand between. What a
terminal makes of them is not said here. -/
namespace Text

open CLib

def sequence (params : Bytes) (final : UInt8) : Bytes := 27 :: 91 :: (params ++ [final])

inductive Piece where
  | text (bytes : Bytes)
  | style (params : Bytes)
  | move (row col : Int)
  | home
  | below

def Piece.bytes : Piece → Bytes
  | .text bytes => bytes
  | .style params => sequence params 109
  | .move row col => sequence (formatInt row ++ 59 :: formatInt col) 72
  | .home => sequence [] 72
  | .below => sequence [] 74

def written (pieces : List Piece) : Bytes := pieces.flatMap Piece.bytes

@[simp] theorem written_append (first second : List Piece) :
    written (first ++ second) = written first ++ written second := List.flatMap_append

/-- A tab, a newline, or no control code: neither one of the first set, which `ESC` and the
shifts are in, nor one of the second, whose codes are single bytes or the last of two in UTF-8. -/
def harmless (b : UInt8) : Bool := b == 9 || b == 10 || (32 ≤ b && b ≤ 126) || 160 ≤ b

def Plain (text : Bytes) : Prop := ∀ b ∈ text, harmless b = true

@[simp] theorem plain_nil : Plain [] := fun _ h => absurd h List.not_mem_nil

@[simp] theorem plain_append {first second : Bytes} :
    Plain (first ++ second) ↔ Plain first ∧ Plain second := List.forall_mem_append

theorem Plain.sub {text part : Bytes} (h : Plain text) (hsub : part ⊆ text) : Plain part :=
  fun b hb => h b (hsub hb)

theorem Plain.take {text : Bytes} (h : Plain text) (n : Nat) : Plain (text.take n) :=
  h.sub (List.take_subset n text)

theorem plain_replicate (n : Nat) {b : UInt8} (hb : harmless b = true) :
    Plain (List.replicate n b) := fun _ hc => List.eq_of_mem_replicate hc ▸ hb

theorem harmless_of_isprint {b : UInt8} (h : isprint b = true) : harmless b = true := by
  unfold isprint at h
  unfold harmless
  rw [h, Bool.or_true, Bool.true_or]

@[simp] theorem plain_decimal (n : Nat) : Plain (decimal n) := by
  intro b hb
  have hdigit := isdigit_of_mem_decimal hb
  simp only [isdigit, Bool.and_eq_true, decide_eq_true_eq] at hdigit
  apply harmless_of_isprint
  simp only [isprint, Bool.and_eq_true, decide_eq_true_eq]
  exact ⟨UInt8.le_trans (by decide) hdigit.1, UInt8.le_trans hdigit.2 (by decide)⟩

theorem plain_literal (text : List Char)
    (h : text.all (fun c => harmless c.toNat.toUInt8) = true) :
    Plain (ascii (String.ofList text)) := by
  intro b hb
  unfold ascii at hb
  rw [String.toList_ofList] at hb
  obtain ⟨c, hc, rfl⟩ := List.mem_map.mp hb
  exact List.all_eq_true.mp h c hc

@[simp] theorem plain_formatInt (n : Int) : Plain (formatInt n) := by
  unfold formatInt
  split_ifs
  · exact plain_append.mpr ⟨plain_literal ['-'] rfl, plain_decimal _⟩
  · exact plain_decimal _

@[simp] theorem plain_formatTenths (q : ℚ) : Plain (formatTenths q) := by
  unfold formatTenths
  dsimp only
  split_ifs <;> simp only [plain_append, plain_decimal, plain_nil, true_and, and_true]
  · exact ⟨plain_literal _ rfl, plain_literal _ rfl⟩
  · exact plain_literal _ rfl

@[simp] theorem plain_formatHundredths (q : ℚ) : Plain (formatHundredths q) := by
  unfold formatHundredths
  dsimp only
  split_ifs <;> simp only [plain_append, plain_decimal, plain_nil, true_and, and_true]
  · exact ⟨plain_literal _ rfl, plain_literal _ rfl⟩
  · exact plain_literal _ rfl

theorem plain_fill (n : Nat) {b : UInt8} {text : Bytes} (hb : harmless b = true) :
    Plain (List.replicate n b) ∧ Plain text ↔ Plain text :=
  and_iff_right (plain_replicate n hb)

@[simp] theorem plain_padLeft {n : Nat} {text : Bytes} : Plain (padLeft n text) ↔ Plain text :=
  plain_append.trans (plain_fill _ rfl)

@[simp] theorem plain_padRight {n : Nat} {text : Bytes} : Plain (padRight n text) ↔ Plain text :=
  plain_append.trans (and_comm.trans (plain_fill _ rfl))

@[simp] theorem plain_padZero {n : Nat} {text : Bytes} : Plain (padZero n text) ↔ Plain text :=
  plain_append.trans (plain_fill _ rfl)

/-- Its text has no control code, and the parameters of its style are digits. -/
def Piece.Draws : Piece → Prop
  | .text bytes => Plain bytes
  | .style params => params.all isdigit = true
  | _ => True

/-- The styles that are on behind a sequence, of which `0` takes all back. -/
def setStyle (params : Bytes) (style : List Bytes) : List Bytes :=
  if params = ascii "0" then [] else style ++ [params]

def stylesBehind (pieces : List Piece) (style : List Bytes) : List Bytes :=
  pieces.foldl (fun style piece => match piece with
    | .style params => setStyle params style
    | _ => style) style

def unstyled (pieces : List Piece) : List Piece :=
  pieces.filter fun piece => match piece with
    | .style _ => false
    | _ => true

@[simp] theorem unstyled_nil : unstyled [] = [] := rfl

@[simp] theorem unstyled_append (first second : List Piece) :
    unstyled (first ++ second) = unstyled first ++ unstyled second := List.filter_append ..

theorem unstyled_unstyled (pieces : List Piece) : unstyled (unstyled pieces) = unstyled pieces := by
  unfold unstyled
  rw [List.filter_filter]
  simp only [Bool.and_self]

end Text
