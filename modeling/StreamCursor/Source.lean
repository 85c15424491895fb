import StreamCursor.Buffer
import StreamCursor.Slot
import StreamCursor.StreamEnd

/-! Sources of bytes. A source is read through a slot: it writes what it likes into the slot and
says how many bytes at the front of it are to be taken, or why there are none. -/

namespace StreamCursor

/-- What a source does with one read: the bytes it lays over the front of the slot, and the number
of bytes it claims to have delivered. Nothing ties the two together. -/
structure Reply where
  written : Bytes
  outcome : Except StreamEnd Nat

namespace Reply

/-- The slot as the source leaves it. -/
def leaves (reply : Reply) (slot : Slot) : Slot := slot.overwrite reply.written

/-- The bytes that a reader takes: as many as were claimed, but no more than the slot has. -/
def delivered (reply : Reply) (slot : Slot) : Bytes :=
  match reply.outcome with
  | .ok count => (reply.leaves slot).take count
  | .error _ => []

@[simp] theorem size_leaves (reply : Reply) (slot : Slot) :
    (reply.leaves slot).size = slot.size := rfl

theorem length_delivered_le (reply : Reply) (slot : Slot) :
    (reply.delivered slot).length ≤ slot.size := by
  unfold delivered
  split
  · rw [Slot.take_eq, List.length_take, Slot.length_bytes, size_leaves]
    exact Nat.min_le_right ..
  · exact Nat.zero_le _

/-- The reply of a source that writes the bytes it delivers and nothing else. -/
def exactly (bytes : Bytes) : Reply := ⟨bytes, .ok bytes.length⟩

end Reply

class Source (σ : Type) where
  read : σ → Slot → Reply × σ
  /-- All that is left, in one buffer, if the source has it in memory. -/
  takeAll : σ → Option Buffer × σ := fun source => (none, source)

end StreamCursor
