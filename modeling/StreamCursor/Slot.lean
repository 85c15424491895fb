import StreamCursor.Bytes
import StreamCursor.Fault

/-! Slots: the room that a source is given to write into. Most of a slot is zeros, and those are
not stored. Main statement: writing, taking and dropping act on a slot as on its bytes. -/

namespace StreamCursor

structure Slot where
  /-- The bytes at the front. All others are zero. -/
  front : Bytes
  size : Nat
  length_front_le : front.length ≤ size
  deriving DecidableEq

namespace Slot

def blank (size : Nat) : Slot := ⟨[], size, Nat.zero_le _⟩

def ofBytes (bytes : Bytes) : Slot := ⟨bytes, bytes.length, Nat.le_refl _⟩

/-- A slot that is full of one byte. -/
def filled (b : UInt8) (size : Nat) : Except Fault Slot :=
  if maxCapacity < size then .error .capacity else .ok (ofBytes (List.replicate size b))

def bytes (slot : Slot) : Bytes := slot.front ++ Bytes.zeros (slot.size - slot.front.length)

/-- The slot after `written` was laid over its front. What does not fit is lost. -/
def overwrite (slot : Slot) (written : Bytes) : Slot where
  front :=
    let fitting := written.take slot.size
    fitting ++ slot.front.drop fitting.length
  size := slot.size
  length_front_le := by
    have := slot.length_front_le
    simp only [List.length_append, List.length_take, List.length_drop]
    omega

/-- The first `n` bytes, or all if there are fewer. -/
def take (slot : Slot) (n : Nat) : Bytes :=
  slot.front.take n ++ Bytes.zeros (min n slot.size - slot.front.length)

/-- The slot behind its first `n` bytes. -/
def drop (slot : Slot) (n : Nat) : Slot where
  front := slot.front.drop n
  size := slot.size - n
  length_front_le := by
    have := slot.length_front_le
    simp only [List.length_drop]
    omega

@[simp] theorem length_bytes (slot : Slot) : slot.bytes.length = slot.size := by
  have := slot.length_front_le
  simp only [bytes, List.length_append, Bytes.length_zeros]
  omega

@[simp] theorem bytes_ofBytes (bytes : Bytes) : (ofBytes bytes).bytes = bytes := by
  simp [Slot.bytes, ofBytes, Bytes.zeros]

@[simp] theorem size_overwrite (slot : Slot) (written : Bytes) :
    (slot.overwrite written).size = slot.size := rfl

theorem bytes_overwrite (slot : Slot) (written : Bytes) :
    (slot.overwrite written).bytes
      = written.take slot.size ++ slot.bytes.drop (written.take slot.size).length := by
  have := slot.length_front_le
  have hw := List.length_take_le slot.size written
  simp only [bytes, overwrite, List.drop_append, List.append_assoc, Bytes.zeros,
    List.drop_replicate, List.length_append, List.length_drop]
  congr 3
  omega

@[simp] theorem take_eq (slot : Slot) (n : Nat) : slot.take n = slot.bytes.take n := by
  simp only [take, bytes, Bytes.zeros, List.take_append, List.take_replicate]
  congr 2
  omega

@[simp] theorem bytes_drop (slot : Slot) (n : Nat) : (slot.drop n).bytes = slot.bytes.drop n := by
  simp only [bytes, drop, Bytes.zeros, List.drop_append, List.drop_replicate, List.length_drop]
  congr 2
  omega

end Slot
end StreamCursor
