import StreamCursor.Text.Record

/-! Reading one code point of UTF-8 without checking it. The leading byte fixes how many bytes
belong to the code point; any byte may follow. Reading therefore never fails, and a caller that
cares about well-formedness asks for `asChar?`. -/

namespace StreamCursor

structure CodePoint where
  value : Nat
  width : Nat
  deriving DecidableEq

namespace CodePoint

/-- The length of the sequence that a leading byte announces. -/
def sequenceWidth (first : UInt8) : Nat :=
  if first < 0xC0 then 1 else if first < 0xE0 then 2 else if first < 0xF0 then 3 else 4

/-- The bits of the value that the leading byte holds. -/
def leadingBits (first : UInt8) : Nat :=
  match sequenceWidth first with
  | 1 => first.toNat
  | 2 => first.toNat % 32
  | 3 => first.toNat % 16
  | _ => first.toNat % 8

/-- A following byte adds its low six bits, whatever its high bits say. -/
def ofSequence (first : UInt8) (rest : Bytes) : CodePoint where
  value := rest.foldl (fun value b => value * 64 + b.toNat % 64) (leadingBits first)
  width := rest.length + 1

/-- Asks for the bytes of one code point, in order, and for no byte past its end. -/
def decode {m : Type → Type} [Monad m] (byte : Nat → m UInt8) : m CodePoint := do
  let first ← byte 0
  let rest ← (List.range (sequenceWidth first - 1)).mapM fun i => byte (i + 1)
  return ofSequence first rest

/-- The code point at the front of `bytes`, which are taken to be followed by zeros. -/
def ofBytes (bytes : Bytes) : CodePoint := Id.run (decode fun i => pure (bytes[i]?.getD 0))

def asChar? (p : CodePoint) : Option Char :=
  if p.value.isValidChar then some (Char.ofNat p.value) else none

def describe (p : CodePoint) : String :=
  Text.record "Rune" [("value", toString p.value), ("len", toString p.width)]

theorem sequenceWidth_pos (first : UInt8) : 0 < sequenceWidth first := by
  unfold sequenceWidth
  split <;> (try split) <;> (try split) <;> decide

theorem sequenceWidth_le (first : UInt8) : sequenceWidth first ≤ 4 := by
  unfold sequenceWidth
  split <;> (try split) <;> (try split) <;> decide

end CodePoint
end StreamCursor
