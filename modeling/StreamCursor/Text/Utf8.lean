import StreamCursor.CodePoint

/-! UTF-8 text with errors in it. A byte string falls into characters and broken pieces, where a
broken piece is the longest start of a sequence that some character has, or else a single byte. -/

namespace StreamCursor.Text

inductive Piece where
  | char (c : Char)
  | broken (bytes : Bytes)

/-- The ranges of the bytes that must follow a leading byte, or `none` if no character begins
with it. The first range is narrower where a wider one would admit an overlong form, a surrogate
or a value past the last code point. -/
def followers (first : UInt8) : Option (List (UInt8 × UInt8)) :=
  if first < 0x80 then some []
  else if first < 0xC2 then none
  else if first < 0xE0 then some [(0x80, 0xBF)]
  else if first = 0xE0 then some [(0xA0, 0xBF), (0x80, 0xBF)]
  else if first = 0xED then some [(0x80, 0x9F), (0x80, 0xBF)]
  else if first < 0xF0 then some [(0x80, 0xBF), (0x80, 0xBF)]
  else if first = 0xF0 then some [(0x90, 0xBF), (0x80, 0xBF), (0x80, 0xBF)]
  else if first < 0xF4 then some [(0x80, 0xBF), (0x80, 0xBF), (0x80, 0xBF)]
  else if first = 0xF4 then some [(0x80, 0x8F), (0x80, 0xBF), (0x80, 0xBF)]
  else none

/-- The longest front of `bytes` whose members lie in the ranges, one by one. -/
def following : List (UInt8 × UInt8) → Bytes → Bytes
  | (low, high) :: ranges, b :: bytes =>
      if low ≤ b ∧ b ≤ high then b :: following ranges bytes else []
  | _, _ => []

/-- The piece that begins with `first`, and how many of the bytes after it belong to it. -/
def pieceAt (first : UInt8) (bytes : Bytes) : Piece × Nat :=
  match followers first with
  | none => (.broken [first], 0)
  | some ranges =>
      let rest := following ranges bytes
      if rest.length = ranges.length then
        (.char (Char.ofNat (CodePoint.ofSequence first rest).value), rest.length)
      else (.broken (first :: rest), rest.length)

/-- The pieces of what follows the first `skip` bytes. -/
def piecesAfter : (skip : Nat) → Bytes → List Piece
  | _, [] => []
  | skip + 1, _ :: bytes => piecesAfter skip bytes
  | 0, first :: bytes =>
      let (piece, more) := pieceAt first bytes
      piece :: piecesAfter more bytes

def pieces (bytes : Bytes) : List Piece := piecesAfter 0 bytes

theorem piecesAfter_eq (skip : Nat) (bytes : Bytes) :
    piecesAfter skip bytes = pieces (bytes.drop skip) := by
  induction skip generalizing bytes with
  | zero => rfl
  | succ skip ih =>
    cases bytes with
    | nil => rfl
    | cons b bytes => exact ih bytes

/-- The first piece, and the pieces of what it leaves. -/
theorem pieces_cons (first : UInt8) (bytes : Bytes) :
    pieces (first :: bytes) =
      (pieceAt first bytes).1 :: pieces (bytes.drop (pieceAt first bytes).2) := by
  rw [← piecesAfter_eq]
  rfl

/-- A broken piece reads as one replacement character. -/
def Piece.reading : Piece → Char
  | .char c => c
  | .broken _ => '\uFFFD'

/-- The bytes as text, whatever they are. -/
def lossy (bytes : Bytes) : String := String.ofList ((pieces bytes).map Piece.reading)

/-- Each byte as the character of its number. -/
def ascii (bytes : Bytes) : String := String.ofList (bytes.map fun b => Char.ofNat b.toNat)

theorem pieceAt_ascii {b : UInt8} (h : b < 0x80) (bytes : Bytes) :
    pieceAt b bytes = (.char (Char.ofNat b.toNat), 0) := by
  have hlt : b < 0xC0 := UInt8.lt_trans h (by decide)
  have hwidth : CodePoint.sequenceWidth b = 1 := if_pos hlt
  simp [pieceAt, followers, h, following, CodePoint.ofSequence, CodePoint.leadingBits, hwidth]

theorem lossy_eq_ascii {bytes : Bytes} (h : ∀ b ∈ bytes, b < 0x80) : lossy bytes = ascii bytes := by
  unfold lossy ascii
  congr 1
  induction bytes with
  | nil => rfl
  | cons b bytes ih =>
    rw [List.forall_mem_cons] at h
    rw [pieces_cons, pieceAt_ascii h.1, List.drop_zero, List.map_cons, List.map_cons, ih h.2]
    rfl

end StreamCursor.Text
