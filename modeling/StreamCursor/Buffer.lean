import StreamCursor.Bytes
import StreamCursor.Fault

/-! Buffers: storage for a fixed number of bytes, of which the first ones are in use. -/

namespace StreamCursor

structure Buffer where
  bytes : Bytes
  capacity : Nat
  deriving DecidableEq

namespace Buffer

def empty : Buffer := ⟨[], 0⟩

def size (buffer : Buffer) : Nat := buffer.bytes.length

/-- A buffer that holds `bytes`, with room for `capacity` bytes if that is more. -/
def holding (bytes : Bytes) (capacity : Nat) : Except Fault Buffer :=
  let capacity := max capacity bytes.length
  if maxCapacity < capacity then .error .capacity else .ok ⟨bytes, capacity⟩

/-- Appends as many of the bytes as there is room for. -/
def fill (buffer : Buffer) (bytes : Bytes) : Buffer :=
  { buffer with bytes := buffer.bytes ++ bytes.take (buffer.capacity - buffer.size) }

end Buffer
end StreamCursor
