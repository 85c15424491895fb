import StreamCursor.Bytes

/-! Byte classes of ASCII text. No byte of a longer UTF-8 sequence is in either class. -/

namespace StreamCursor.Ascii

/-- Space, tab, line feed, form feed and carriage return. -/
def isSpace (b : UInt8) : Bool :=
  b == 0x20 || b == 0x09 || b == 0x0A || b == 0x0C || b == 0x0D

def isAlphanumeric (b : UInt8) : Bool :=
  (0x30 ≤ b && b ≤ 0x39) || (0x41 ≤ b && b ≤ 0x5A) || (0x61 ≤ b && b ≤ 0x7A)

theorem not_isSpace_zero : isSpace 0 = false := rfl

theorem not_isAlphanumeric_zero : isAlphanumeric 0 = false := rfl

theorem lt_of_isAlphanumeric {b : UInt8} (h : isAlphanumeric b) : b < 0x80 := by
  simp [isAlphanumeric, UInt8.le_iff_toNat_le] at h
  rw [UInt8.lt_iff_toNat_lt]
  simp only [UInt8.reduceToNat]
  omega

theorem not_isSpace_of_isAlphanumeric {b : UInt8} (h : isAlphanumeric b) : isSpace b = false := by
  simp [isAlphanumeric, UInt8.le_iff_toNat_le] at h
  simp [isSpace, ← UInt8.toNat_inj]
  omega

theorem not_isAlphanumeric_of_isSpace {b : UInt8} (h : isSpace b) : isAlphanumeric b = false := by
  cases halphanumeric : isAlphanumeric b with
  | false => rfl
  | true =>
    rw [not_isSpace_of_isAlphanumeric halphanumeric] at h
    cases h

end StreamCursor.Ascii
