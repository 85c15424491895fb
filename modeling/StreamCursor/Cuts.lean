import StreamCursor.Bytes
import StreamCursor.Fault

/-! Cutting a byte string into packets. Cuts fall anywhere, also inside characters. -/

namespace StreamCursor.Bytes

/-- Parts of `size` bytes each; only the last may be shorter. -/
def partsOf (size : Nat) (bytes : Bytes) : List Bytes :=
  if size = 0 ∨ bytes = [] then []
  else bytes.take size :: partsOf size (bytes.drop size)
termination_by bytes.length
decreasing_by
  rename_i h
  have := List.length_pos_iff.2 (not_or.1 h).2
  simp only [List.length_drop]
  omega

/-- About `parts` parts of equal size. Rounding the size up may leave fewer. -/
def evenParts (bytes : Bytes) (parts : Nat) : Except Fault (List Bytes) :=
  if parts = 0 then .error .noParts
  else .ok (partsOf ((bytes.length + parts - 1) / parts) bytes)

/-- Each cut takes one byte and as many more as its number says, counted round the rest. What is
left after the cuts is the last part. -/
def cutBy : (bytes cuts : Bytes) → List Bytes
  | bytes, [] => [bytes]
  | bytes, cut :: cuts =>
      if bytes.isEmpty then [bytes]
      else
        let size := 1 + cut.toNat % bytes.length
        bytes.take size :: cutBy (bytes.drop size) cuts

theorem flatten_partsOf {size : Nat} (h : 0 < size) (bytes : Bytes) :
    (partsOf size bytes).flatten = bytes := by
  fun_induction partsOf size bytes with
  | case1 bytes hb => rcases hb with hb | hb <;> simp_all
  | case2 bytes _ ih => simp [ih]

theorem flatten_cutBy (bytes cuts : Bytes) : (bytes.cutBy cuts).flatten = bytes := by
  induction cuts generalizing bytes with
  | nil => simp [cutBy]
  | cons cut cuts ih =>
    simp only [cutBy]
    split
    · simp
    · simp [ih]

end StreamCursor.Bytes
