import StreamCursor.Bytes

/-! Trails: bytes that a cursor has passed. The last ones are at hand, and their number is known. -/

namespace StreamCursor

-- By name, so that all empty trails are one term.
theorem Trail.size_nil : 0 = ([] : Bytes).length := rfl

structure Trail where
  /-- The bytes, the last first. -/
  reversed : Bytes := []
  size : Nat := 0
  size_eq : size = reversed.length := by exact Trail.size_nil
  deriving DecidableEq

namespace Trail

/-- The bytes in the order in which they were passed. -/
def bytes (trail : Trail) : Bytes := trail.reversed.reverse

def push (trail : Trail) (bytes : Bytes) : Trail where
  reversed := bytes.reverseAux trail.reversed
  size := trail.size + bytes.length
  size_eq := by simp [trail.size_eq, List.reverseAux_eq, Nat.add_comm]

/-- The last `n` bytes, or all if there are fewer. -/
def last (trail : Trail) (n : Nat) : Bytes := (trail.reversed.take n).reverse

/-- The trail without its last `n` bytes. -/
def pop (trail : Trail) (n : Nat) : Trail where
  reversed := trail.reversed.drop n
  size := trail.size - n
  size_eq := by simp [trail.size_eq]

/-- The bytes of one trail after those of another. -/
def append (trail next : Trail) : Trail where
  reversed := next.reversed ++ trail.reversed
  size := trail.size + next.size
  size_eq := by simp [trail.size_eq, next.size_eq, Nat.add_comm]

def ofBytes (bytes : Bytes) : Trail := Trail.push {} bytes

@[simp] theorem length_bytes (trail : Trail) : trail.bytes.length = trail.size := by
  simp [bytes, trail.size_eq]

@[simp] theorem bytes_empty : bytes {} = [] := rfl

@[simp] theorem bytes_push (trail : Trail) (bytes : Bytes) :
    (trail.push bytes).bytes = trail.bytes ++ bytes := by
  simp [Trail.bytes, push, List.reverseAux_eq]

@[simp] theorem bytes_append (trail next : Trail) :
    (trail.append next).bytes = trail.bytes ++ next.bytes := by
  simp [bytes, append]

@[simp] theorem bytes_ofBytes (bytes : Bytes) : (ofBytes bytes).bytes = bytes := by
  simp [ofBytes]

@[simp] theorem bytes_pop_append_last (trail : Trail) (n : Nat) :
    (trail.pop n).bytes ++ trail.last n = trail.bytes := by
  simp [bytes, pop, last, ← List.reverse_append]

end Trail
end StreamCursor
