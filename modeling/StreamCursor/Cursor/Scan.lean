import StreamCursor.Cursor

/-! Scans: programs that move a cursor along its stream. -/

namespace StreamCursor

/-- A program over a cursor. It stops only if a buffer cannot be had. -/
abbrev Scan (σ : Type) := StateT (Cursor σ) (Except Fault)

namespace Scan

variable {σ : Type}

def visibleEnd : Scan σ (Option StreamEnd) := return (← get).visibleEnd

def offset : Scan σ Nat := return (← get).offset

def tokenOffset : Scan σ Nat := return (← get).tokenOffset

def move (n : Int) : Scan σ Unit := modify (·.move n)

/-- Commits the token and returns its bytes. -/
def take : Scan σ Bytes := modifyGet (·.take)

def commit : Scan σ Unit := modify (·.commit)

def release : Scan σ Unit := modify (·.release)

variable [Source σ]

def peek (k : Nat) : Scan σ UInt8 := fun c => c.peek k

/-- The bytes at the cursor's next `count` positions from `first` on. -/
def peekRange (first count : Nat) : Scan σ Bytes :=
  (List.range count).mapM fun i => peek (first + i)

/-- The code point that begins `k` positions after the cursor, read with no check. -/
def peekCodePoint (k : Nat) : Scan σ CodePoint := CodePoint.decode fun i => peek (k + i)

/-- Moves over at most `limit` bytes, for as long as they satisfy `go`, and counts them. Where it
stops, it has seen the byte it stopped at. -/
def walk (go : UInt8 → Bool) : (limit : Nat) → Scan σ Nat
  | 0 => do
      let _ ← peek 0
      return 0
  | limit + 1 => do
      let b ← peek 0
      if (← visibleEnd).isSome || !go b then return 0
      move 1
      return (← walk go limit) + 1

/-- Moves over at most `n` bytes. -/
def advance (n : Nat) : Scan σ Nat := walk (fun _ => true) n

/-- Moves over at most `n` bytes and looks at none past them. -/
def stride : (n : Nat) → Scan σ Nat
  | 0 => return 0
  | n + 1 => do
      let _ ← peek 0
      if (← visibleEnd).isSome then return 0
      move 1
      return (← stride n) + 1

/-- Moves over all bytes that satisfy `go`. No stream is longer than the limit set here. -/
def walkWhile (go : UInt8 → Bool) : Scan σ Nat := walk go maxCapacity

/-- Commits one field after another, each with the separator after it. The last field is the one
that the stream's end cuts off. -/
def fieldsWithin (separators : Bytes) (releasing : Bool) : (limit : Nat) → Scan σ (List Bytes)
  | 0 => return []
  | limit + 1 => do
      let _ ← walkWhile fun b => !separators.contains b
      let last := (← visibleEnd).isSome
      move 1
      let field ← take
      if releasing then release
      if last then return [field]
      return field :: (← fieldsWithin separators releasing limit)

/-- The fields between the separators. If `releasing`, their storage is given back at once. -/
def fields (separators : Bytes) (releasing : Bool) : Scan σ (List Bytes) :=
  fieldsWithin separators releasing maxCapacity

end Scan
end StreamCursor
