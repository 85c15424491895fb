/-! Byte strings, and the operations on them that other modules share. -/

namespace StreamCursor

/-- A sum of sizes starts from the literal zero, also where that of an algebraic structure is in
scope. -/
scoped instance (priority := 2000) instZeroSize : Zero Nat := Zero.ofOfNat0

abbrev Bytes := List UInt8

/-- The greatest capacity of a buffer. Positions in a buffer stay below it. -/
def maxCapacity : Nat := 9223372036854775807

namespace Bytes

def zeros (n : Nat) : Bytes := List.replicate n 0

/-- The bytes from `start` up to `stop`, if both are positions of the string, in this order. -/
def slice? (bytes : Bytes) (start stop : Nat) : Option Bytes :=
  if start ≤ stop ∧ stop ≤ bytes.length then some ((bytes.drop start).take (stop - start))
  else none

@[simp] theorem length_zeros (n : Nat) : (zeros n).length = n := List.length_replicate

end Bytes
end StreamCursor
