import StreamCursor.Proofs.Checked.Pool
import StreamCursor.Proofs.History

/-! A cursor as a machine that has one buffer, indices into it, and words for its arithmetic. Each
operation on a cursor is spelled out as a program of this machine, in which every access, every
difference and every sum of indices is checked. Stream offsets, what was consumed and what is stored
in all are plain numbers: they are assumed to be words. -/

namespace StreamCursor

namespace Slot

/-- The slot with zeros behind it up to `size`, if it has fewer bytes. -/
def grow (slot : Slot) (size : Nat) : Slot where
  front := slot.front
  size := max slot.size size
  length_front_le := Nat.le_trans slot.length_front_le (Nat.le_max_left ..)

/-- The first `n` bytes of the slot, followed by another slot. -/
def splice (slot : Slot) (n : Nat) (rest : Slot) : Slot where
  front := slot.take n ++ rest.front
  size := n + rest.size
  length_front_le := by
    have := rest.length_front_le
    rw [List.length_append, take_eq, List.length_take]
    omega

end Slot

/-- The state of the machine. All indices are places in `content`. -/
structure Registers (σ : Type) where
  source : σ
  ended : Option StreamEnd
  pool : Pool
  /-- The active buffer over its length, whatever it holds of the stream. -/
  content : Slot
  capacity : Nat
  /-- Where the bytes of the stream end. -/
  stop : Nat
  /-- Where the token begins. -/
  start : Nat
  /-- Where the cursor stands. -/
  position : Nat
  /-- Where the token began at the last report. -/
  reportedTo : Nat
  /-- How many bytes committed in retired buffers were not reported. -/
  unreported : Nat
  /-- The stream offset of the first place. -/
  base : Nat

namespace Registers

open Checked

variable {σ : Type}

/-- The order of the indices on which all checks rely. -/
structure Ordered (m : Registers σ) : Prop where
  start_le : m.start ≤ m.position
  position_le : m.position ≤ m.stop
  stop_le : m.stop ≤ m.content.size
  size_le : m.content.size ≤ m.capacity
  capacity_le : m.capacity ≤ maxCapacity
  reportedTo_le : m.reportedTo ≤ m.start

theorem Ordered.stop_le_max {m : Registers σ} (h : m.Ordered) : m.stop ≤ maxCapacity :=
  Nat.le_trans h.stop_le (Nat.le_trans h.size_le h.capacity_le)

def offset (m : Registers σ) : Nat := m.base + m.position

def tokenOffset (m : Registers σ) : Nat := m.base + m.start

def visibleEnd (m : Registers σ) : Option StreamEnd :=
  if m.position < m.stop then none else m.ended

def token (m : Registers σ) : Checked Bytes := slice m.content.bytes m.start m.position

/-- The bytes from the cursor on. -/
def ahead (m : Registers σ) : Checked Bytes := slice m.content.bytes m.position m.stop

def mark (m : Registers σ) : Checked Nat := sub m.position m.start

def move (m : Registers σ) (n : Int) : Checked (Registers σ) := do
  return { m with position := ← clamp (shift m.position n) m.start m.stop }

def rewind (m : Registers σ) (mark : Nat) : Registers σ :=
  { m with position := min (addUpTo m.start mark) m.stop }

def commit (m : Registers σ) : Registers σ := { m with start := m.position }

def take (m : Registers σ) : Checked (Bytes × Registers σ) := do
  return (← slice m.content.bytes m.start m.commit.position, m.commit)

def report (m : Registers σ) : Checked (Nat × Registers σ) := do
  return (← sub (m.unreported + m.start) m.reportedTo,
    { m with unreported := 0, reportedTo := m.start })

def consume (m : Registers σ) (n : Nat) : Checked (Registers σ) := do
  return { m with pool := ← m.pool.consumeChecked n }

def release (m : Registers σ) : Checked (Registers σ) := do
  let (n, m) ← m.report
  m.consume n

/-- The start of the token becomes the first place. -/
def rebase (m : Registers σ) : Checked (Registers σ) := do
  let committed ← sub m.start m.reportedTo
  let position ← sub m.position m.start
  return { m with
    base := m.base + m.start
    unreported := m.unreported + committed
    reportedTo := 0
    position
    start := 0 }

/-- The capacity to ask for when the place `reach` behind the start of the token does not fit. -/
def target (capacity reach : Nat) : Checked Nat := do
  let least ← add reach 1
  if capacity < mulUpTo reach 2 then
    return min (addUpTo (mulUpTo capacity 2) reach) maxCapacity
  else return max capacity least

/-- Exchanges the active buffer for one that has a place `reach` behind the start of the token. -/
def exchange (m : Registers σ) (reach : Nat) : Checked (Registers σ) := do
  let target ← target m.capacity reach
  let _ ← sub m.stop m.start
  let (fresh, pool) ←
    m.pool.exchangeChecked ⟨m.content.take m.stop, m.capacity⟩ m.start target
  rebase { m with
    pool
    content := .ofBytes fresh.bytes
    capacity := fresh.capacity
    stop := fresh.size }

/-- The registers with the buffer in use over its whole capacity. -/
def grown (m : Registers σ) : Registers σ := { m with content := m.content.grow m.capacity }

/-- The places from `stop` on, as a slot to read into. -/
def spare (m : Registers σ) : Checked Slot := do
  require (m.stop ≤ m.content.size) .slice
  return m.content.drop m.stop

/-- Puts the slot that a source left back behind `stop`, and takes in what was claimed of it. -/
def takeIn (m : Registers σ) (outcome : Except StreamEnd Nat) (left : Slot) :
    Checked (Registers σ) := do
  let room ← sub m.content.size m.stop
  let count := match outcome with
    | .ok count => min count room
    | .error _ => 0
  let ended := match outcome with
    | .ok _ => m.ended
    | .error cause => some cause
  let stop ← add m.stop count
  return { m with
    content := m.content.splice m.stop left
    stop
    ended := if count = 0 ∧ ended.isNone then some .eof else ended }

variable [Source σ]

/-- Reads once into the places from `stop` on. -/
def read (m : Registers σ) : Checked (Registers σ) := do
  let spare ← m.grown.spare
  let (reply, source) := Source.read m.source spare
  takeIn { m.grown with source } reply.outcome (reply.leaves spare)

/-- Makes sure that the buffer has the place `i`, and reads once. -/
def refill (m : Registers σ) (i : Nat) : Checked (Registers σ) := do
  if i < m.capacity then m.read
  else
    let reach ← sub i m.start
    let next ← m.exchange reach
    next.read

/-- Refills until the byte `reach` places behind the start of the token has arrived or the stream
has ended, which takes fewer than the given number of turns. -/
def fill (reach : Nat) : (turns : Nat) → Registers σ → Checked (UInt8 × Registers σ)
  | 0, _ => .error .endless
  | turns + 1, m => do
      let i ← add m.start reach
      if i < m.stop then return (← get m.content.bytes i, m)
      else if m.ended.isSome then return (0, m)
      else
        let next ← m.refill i
        fill reach turns next

/-- The byte `k` places behind the cursor. Every refill brings a byte or the end of the stream. -/
def peek (m : Registers σ) (k : Nat) : Checked (UInt8 × Registers σ) := do
  let i := m.position + k
  -- A sum that is no word is beyond every buffer as well.
  if maxWord < i ∨ maxCapacity ≤ i then return (0, m)
  else if i < m.stop then return (← get m.content.bytes i, m)
  else
    let reach ← sub i m.start
    m.fill reach (reach + 2)

/-- A machine that has read nothing, but may have been handed a buffer that is in use. -/
def holding (source : σ) (buffer : Buffer) (ended : Option StreamEnd) : Registers σ where
  source
  ended
  pool := {}
  content := .ofBytes buffer.bytes
  capacity := buffer.capacity
  stop := buffer.size
  start := 0
  position := 0
  reportedTo := 0
  unreported := 0
  base := 0

def buffering (source : σ) (bufferSize : Nat) : Checked (Registers σ) := do
  let capacity := max bufferSize 1
  require (capacity ≤ maxCapacity) (.fault .capacity)
  let (_, m) ← (holding source ⟨[], capacity⟩ none).peek 0
  return m

def ofSource (source : σ) (options : Options := {}) : Checked (Registers σ) :=
  if options.adopt then
    match Source.takeAll source with
    | (some buffer, source) => .ok (holding source buffer (some .eof))
    | (none, source) => buffering source options.bufferSize
  else buffering source options.bufferSize

/-- A program of the machine. -/
abbrev Program (σ : Type) := StateT (Registers σ) Checked

/-- The program that changes the registers and has nothing to answer. -/
def update (f : Registers σ → Checked (Registers σ)) : Program σ Answer := do
  set (← f (← get))
  return .nothing

def perform : Operation → Program σ Answer
  | .peek k => return .byte (← fun m => m.peek k)
  | .codePoint k =>
      return .codePoint (← CodePoint.decode fun i (m : Registers σ) => m.peek (addUpTo k i))
  | .move n => update (·.move n)
  | .mark => return .number (← (← get).mark)
  | .rewind mark => update fun m => return m.rewind mark
  | .take => return .bytes (← fun m => m.take)
  | .commit => update fun m => return m.commit
  | .report => return .number (← fun m => m.report)
  | .consume n => update (·.consume n)
  | .release => update (·.release)

end Registers
end StreamCursor
