import StreamCursor.Trail

/-! The bytes ahead of a cursor, as a queue: they leave at the front and arrive at the back. Main
statements: looking, taking, dropping and extending act on the queue as on its bytes. -/

namespace StreamCursor

theorem Lookahead.size_nil : 0 = ([] : Bytes).length + ({} : Trail).size := rfl

structure Lookahead where
  front : Bytes := []
  /-- What arrived after the bytes at the front. -/
  arrived : Trail := {}
  size : Nat := 0
  size_eq : size = front.length + arrived.size := by exact Lookahead.size_nil
  deriving DecidableEq

namespace Lookahead

def bytes (ahead : Lookahead) : Bytes := ahead.front ++ ahead.arrived.bytes

def ofBytes (bytes : Bytes) : Lookahead := ⟨bytes, {}, bytes.length, rfl⟩

def isEmpty (ahead : Lookahead) : Bool := ahead.size == 0

/-- The byte `k` positions ahead, if there is one. -/
def get? (ahead : Lookahead) (k : Nat) : Option UInt8 :=
  match ahead.front[k]? with
  | some b => some b
  | none =>
      if k < ahead.size then ahead.arrived.reversed[ahead.size - 1 - k]? else none

def extend (ahead : Lookahead) (bytes : Bytes) : Lookahead where
  front := ahead.front
  arrived := ahead.arrived.push bytes
  size := ahead.size + bytes.length
  size_eq := by simp [ahead.size_eq, Trail.push, Nat.add_assoc]

/-- The queue with `bytes` before it. -/
def prepend (ahead : Lookahead) (bytes : Bytes) : Lookahead where
  front := bytes ++ ahead.front
  arrived := ahead.arrived
  size := bytes.length + ahead.size
  size_eq := by simp [ahead.size_eq, Nat.add_assoc]

/-- The same queue with its first `n` bytes at the front. -/
def gather (ahead : Lookahead) (n : Nat) : Lookahead :=
  if (ahead.front.take n).length < n ∧ 0 < ahead.arrived.size then ofBytes ahead.bytes else ahead

@[simp] theorem length_bytes (ahead : Lookahead) : ahead.bytes.length = ahead.size := by
  simp [bytes, ahead.size_eq]

@[simp] theorem bytes_gather (ahead : Lookahead) (n : Nat) :
    (ahead.gather n).bytes = ahead.bytes := by
  unfold gather
  split
  · simp [bytes, ofBytes]
  · rfl

theorem gather_front (ahead : Lookahead) (n : Nat) :
    n ≤ (ahead.gather n).front.length ∨ (ahead.gather n).arrived.size = 0 := by
  unfold gather
  split
  · exact .inr rfl
  · rename_i h
    simp only [List.length_take] at h
    omega

/-- The first `n` bytes, or all if there are fewer. -/
def take (ahead : Lookahead) (n : Nat) : Bytes := (ahead.gather n).front.take n

/-- The queue behind its first `n` bytes. -/
def drop (ahead : Lookahead) (n : Nat) : Lookahead where
  front := (ahead.gather n).front.drop n
  arrived := (ahead.gather n).arrived
  size := (ahead.gather n).size - n
  size_eq := by
    have := ahead.gather_front n
    have := (ahead.gather n).size_eq
    simp only [List.length_drop]
    omega

theorem bytes_of_arrived {ahead : Lookahead} (h : ahead.arrived.size = 0) :
    ahead.bytes = ahead.front := by
  have := List.length_eq_zero_iff.1 ((Trail.length_bytes _).trans h)
  simp [bytes, this]

@[simp] theorem take_eq (ahead : Lookahead) (n : Nat) : ahead.take n = ahead.bytes.take n := by
  rw [← bytes_gather ahead n]
  rcases ahead.gather_front n with h | h
  · simp [take, bytes, List.take_append_of_le_length h]
  · rw [bytes_of_arrived h, take]

@[simp] theorem bytes_drop (ahead : Lookahead) (n : Nat) :
    (ahead.drop n).bytes = ahead.bytes.drop n := by
  rw [← bytes_gather ahead n]
  rcases ahead.gather_front n with h | h
  · simp [drop, bytes, List.drop_append_of_le_length h]
  · rw [bytes_of_arrived h, bytes_of_arrived (by exact h), drop]

@[simp] theorem bytes_extend (ahead : Lookahead) (bytes : Bytes) :
    (ahead.extend bytes).bytes = ahead.bytes ++ bytes := by
  simp [Lookahead.bytes, extend]

@[simp] theorem bytes_prepend (ahead : Lookahead) (bytes : Bytes) :
    (ahead.prepend bytes).bytes = bytes ++ ahead.bytes := by
  simp [Lookahead.bytes, prepend]

@[simp] theorem bytes_ofBytes (bytes : Bytes) : (ofBytes bytes).bytes = bytes := by
  simp [Lookahead.bytes, ofBytes]

@[simp] theorem get?_eq (ahead : Lookahead) (k : Nat) : ahead.get? k = ahead.bytes[k]? := by
  have hs := ahead.size_eq
  have hr := ahead.arrived.size_eq
  unfold get? bytes
  split
  · rename_i h
    rw [List.getElem?_append_left (List.getElem?_eq_some_iff.1 h).1, h]
  · rename_i h
    have hk := List.getElem?_eq_none_iff.1 h
    rw [List.getElem?_append_right hk]
    split
    · rw [Trail.bytes, List.getElem?_reverse (by omega)]
      congr 1
      omega
    · symm
      rw [List.getElem?_eq_none_iff, Trail.length_bytes]
      omega

theorem get?_of_size_le {ahead : Lookahead} {k : Nat} (h : ahead.size ≤ k) :
    ahead.get? k = none := by
  rw [get?_eq]
  exact List.getElem?_eq_none (by rwa [length_bytes])

end Lookahead
end StreamCursor
