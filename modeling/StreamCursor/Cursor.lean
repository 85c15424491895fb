import StreamCursor.Options
import StreamCursor.Pool
import StreamCursor.Source
import StreamCursor.Window

/-! A cursor over a stream. It looks ahead, moves back and forth within a token, and commits the
token, over bytes of which it buffers only as many as it has to.

A peek past the buffered bytes reads more of them into the room that is left. Where the byte would
not fit, the buffer is exchanged with the pool for another one, to which the bytes from the start
of the token on are carried. The stream has ended once a read delivers nothing or fails; from then
on the source is left alone, while the bytes already buffered stay readable. -/

namespace StreamCursor

structure Cursor (σ : Type) where
  source : σ
  /-- Why the source will deliver nothing more, once that is known. -/
  ended : Option StreamEnd
  pool : Pool
  window : Window
  /-- The rest of the active buffer, as the source last left it. -/
  spare : Slot
  /-- The capacity of the active buffer. -/
  capacity : Nat
  /-- How many committed bytes were not yet reported to the caller. -/
  pending : Nat
  /-- The stream offset of the first byte in the window. -/
  base : Nat
  /-- What happened so far, the latest first. -/
  journal : List Event

namespace Cursor

variable {σ : Type}

/-- The stream offset of the cursor. -/
def offset (c : Cursor σ) : Nat := c.base + c.window.position

/-- The stream offset at which the token starts. -/
def tokenOffset (c : Cursor σ) : Nat := c.base + c.window.start

/-- How many bytes of the stream have arrived. -/
def arrived (c : Cursor σ) : Nat := c.base + c.window.stop

/-- The cursor's place in the token. It stays good for `rewind` until the token is committed. -/
def mark (c : Cursor σ) : Nat := c.window.mark

/-- The bytes from the start of the token up to the cursor. -/
def token (c : Cursor σ) : Bytes := c.window.token

def isExhausted (c : Cursor σ) : Bool := c.ended.isSome

/-- The end of the stream, once the cursor has reached it. Moving back hides it again. -/
def visibleEnd (c : Cursor σ) : Option StreamEnd :=
  if c.window.ahead.isEmpty then c.ended else none

def log (c : Cursor σ) (events : List Event) : Cursor σ :=
  { c with journal := events.reverse ++ c.journal }

/-- What happened since the journal was last drained, in order. -/
def drainJournal (c : Cursor σ) : List Event × Cursor σ :=
  (c.journal.reverse, { c with journal := [] })

/-- Moves the cursor within the token and the bytes buffered after it. -/
def move (c : Cursor σ) (n : Int) : Cursor σ := { c with window := c.window.move n }

def rewind (c : Cursor σ) (mark : Nat) : Cursor σ := { c with window := c.window.rewind mark }

/-- Commits the token, so that the next one starts at the cursor. -/
def commit (c : Cursor σ) : Cursor σ :=
  { c with window := c.window.commit, pending := c.pending + c.window.mark }

/-- Commits the token and returns its bytes. -/
def take (c : Cursor σ) : Bytes × Cursor σ := (c.token, c.commit)

/-- How many bytes were committed since the last report. -/
def report (c : Cursor σ) : Nat × Cursor σ := (c.pending, { c with pending := 0 })

/-- Lets the pool recycle the storage of `n` more committed bytes. -/
def consume (c : Cursor σ) (n : Nat) : Cursor σ := { c with pool := c.pool.consume n }

/-- Lets the pool recycle the storage of all bytes committed since the last report. -/
def release (c : Cursor σ) : Cursor σ :=
  let (n, c) := c.report
  c.consume n

/-- The capacity to ask for when the byte `reach` positions after the start of the token does not
fit. A token that fills more than half of the buffer makes it grow geometrically. -/
def nextCapacity (capacity reach : Nat) : Nat :=
  if capacity < 2 * reach then min (2 * capacity + reach) maxCapacity
  else max capacity (reach + 1)

/-- Exchanges the active buffer for one that holds the byte `reach` positions after the start of
the token. -/
def exchange (c : Cursor σ) (reach : Nat) : Except Fault (Cursor σ) :=
  let target := nextCapacity c.capacity reach
  let growth := if c.capacity < 2 * reach then [Event.growing c.capacity target] else []
  let swapping := Event.swapping c.tokenOffset (c.window.mark + c.window.ahead.size)
  let (events, result) :=
    c.pool.exchange ⟨c.window.bytes, c.capacity⟩ c.window.start target
  result.map fun (fresh, pool) =>
    { c with
      pool
      window := .ofBytes fresh.bytes c.window.mark
      spare := .blank (fresh.capacity - fresh.size)
      capacity := fresh.capacity
      base := c.tokenOffset }.log (growth ++ swapping :: events)

variable [Source σ]

/-- Reads once into the room that is left. -/
def read (c : Cursor σ) : Cursor σ :=
  let (reply, source) := Source.read c.source c.spare
  let bytes := reply.delivered c.spare
  let spare := (reply.leaves c.spare).drop bytes.length
  let c' := { c with source, spare, window := c.window.extend bytes }
  match reply.outcome with
  | .error cause => { c' with ended := some cause }.log [.failed c.arrived cause, .delivered 0]
  | .ok _ =>
      if bytes.isEmpty then { c' with ended := some .eof }.log [.delivered 0, .ended c.arrived]
      else c'.log [.delivered bytes.length]

/-- Makes room for the byte `k` positions after the cursor and reads once. -/
def refill (c : Cursor σ) (k : Nat) : Except Fault (Cursor σ) :=
  if c.window.position + k < c.capacity then
    .ok (c.log [.toppingUp c.window.stop c.capacity]).read
  else (c.exchange (c.window.mark + k)).map read

/-- Refills until the byte `k` positions after the cursor has arrived or the stream has ended, but
at most `refills` times. -/
def fill (k : Nat) : (refills : Nat) → Cursor σ → Except Fault (Cursor σ)
  | 0, c => .ok c
  | refills + 1, c =>
      if c.isExhausted || k < c.window.ahead.size then .ok c
      else c.refill k >>= fill k refills

/-- The byte `k` positions after the cursor, or zero if the stream ends before it or no buffer can
hold it. A refill brings a byte or the end, so the missing bytes bound the refills. -/
def peek (c : Cursor σ) (k : Nat) : Except Fault (UInt8 × Cursor σ) :=
  match c.window.ahead.get? k with
  | some b => .ok (b, c)
  | none =>
      if maxCapacity ≤ c.window.position + k then .ok (0, c)
      else (c.fill k (k + 1 - c.window.ahead.size)).map fun c =>
        ((c.window.ahead.get? k).getD 0, c)

/-- A cursor over the content of a source that handed it over. -/
def adopting (source : σ) (buffer : Buffer) : Cursor σ where
  source
  ended := some .eof
  pool := {}
  window := { ahead := .ofBytes buffer.bytes }
  spare := .blank 0
  capacity := buffer.capacity
  pending := 0
  base := 0
  journal := [.adopted buffer.size]

/-- A cursor that has read nothing yet. -/
def unread (source : σ) (capacity : Nat) : Cursor σ where
  source
  ended := none
  pool := {}
  window := {}
  spare := .blank capacity
  capacity
  pending := 0
  base := 0
  journal := []

/-- A cursor that buffers what it reads. It reads once at the outset. -/
def buffering (source : σ) (bufferSize : Nat) : Except Fault (Cursor σ) :=
  let capacity := max bufferSize 1
  if maxCapacity < capacity then .error .capacity
  else ((unread source capacity).peek 0).map (·.2)

/-- A cursor at the front of a source. -/
def ofSource (source : σ) (options : Options := {}) : Except Fault (Cursor σ) :=
  if options.adopt then
    match Source.takeAll source with
    | (some buffer, source) => .ok (adopting source buffer)
    | (none, source) => buffering source options.bufferSize
  else buffering source options.bufferSize

end Cursor
end StreamCursor
