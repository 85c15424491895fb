import StreamCursor.Ascii
import StreamCursor.Cursor.Scan

/-! Settings files: lines of `key = value`, blank lines, and comments that begin with `#`. A value
is a bare word or stands in double quotes, which are dropped. -/

namespace StreamCursor.Settings

structure Entry where
  /-- The stream offset of the key. -/
  offset : Nat
  key : String
  value : String
  deriving DecidableEq

inductive Failure where
  /-- The key is not followed by an equals sign, but by the byte `found`. -/
  | missingEquals (key : String) (found : UInt8)
  | buffer (fault : Fault)
  deriving DecidableEq

def Failure.message : Failure → String
  | missingEquals key found =>
      s!"assertion `left == right` failed: expected `=` after {key}\n  left: {found.toNat}\n right: 61"
  | buffer fault => fault.message

abbrev Reader (σ : Type) := StateT (Cursor σ) (Except Failure)

variable {σ : Type} [Source σ]

/-- A scan as a part of reading settings. -/
def scan {α : Type} (s : Scan σ α) : Reader σ α := fun c => (s c).mapError .buffer

def skipBlank : Scan σ Unit := do
  let _ ← Scan.walkWhile Ascii.isSpace
  Scan.commit

/-- Skips the rest of the line. A zero byte ends a comment too. -/
def skipComment : Scan σ Unit := do
  let _ ← Scan.walkWhile fun b => b != 0x0A && b != 0
  Scan.commit

/-- The alphanumeric bytes at the cursor, which may be none. -/
def word : Scan σ String := do
  let _ ← Scan.walkWhile Ascii.isAlphanumeric
  return Text.lossy (← Scan.take)

/-- The text between two quotes. A zero byte or the end of the stream may stand for the second. -/
def quotedText : Scan σ String := do
  Scan.move 1
  Scan.commit
  let _ ← Scan.walkWhile fun b => b != 0x22 && b != 0
  let text ← Scan.take
  Scan.move 1
  Scan.commit
  return Text.lossy text

def value : Scan σ String := do
  skipBlank
  if (← Scan.peek 0) = 0x22 then quotedText else word

/-- Reads one entry, from the first byte of its key on. -/
def entry : Reader σ Entry := do
  let offset ← scan Scan.tokenOffset
  let key ← scan word
  scan skipBlank
  let found ← scan (Scan.peek 0)
  if found ≠ 0x3D then throw (.missingEquals key found)
  scan (Scan.move 1)
  scan Scan.commit
  let value ← scan value
  return { offset, key, value }

/-- Reads at most `limit` comments and entries. -/
def entriesWithin : (limit : Nat) → Reader σ (List Entry)
  | 0 => return []
  | limit + 1 => do
      scan skipBlank
      let b ← scan (Scan.peek 0)
      if b = 0 ∧ (← scan Scan.visibleEnd).isSome then return []
      if b = 0x23 then
        scan skipComment
        scan Scan.release
        entriesWithin limit
      else
        let e ← entry
        scan Scan.release
        return e :: (← entriesWithin limit)

/-- All entries up to the end of the stream. Each comment and entry takes a byte at least, and no
stream has more bytes than the limit set here. -/
def entries : Reader σ (List Entry) := entriesWithin maxCapacity

end StreamCursor.Settings
