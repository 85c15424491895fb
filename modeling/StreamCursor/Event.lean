import StreamCursor.StreamEnd

/-! What a cursor and its pool report about their work. -/

namespace StreamCursor

inductive Event where
  /-- The cursor took over all `count` bytes of its source. -/
  | adopted (count : Nat)
  | toppingUp (filled capacity : Nat)
  | growing (capacity target : Nat)
  /-- The buffer is exchanged at a stream offset, and the next one begins with `carried` bytes. -/
  | swapping (offset carried : Nat)
  | delivered (count : Nat)
  | ended (offset : Nat)
  | failed (offset : Nat) (cause : StreamEnd)
  /-- The pool claimed a drained block for a request of `needed` bytes. -/
  | claimed (slot capacity needed : Nat)
  | reusedInPlace
  | allocated (needed slot : Nat)
  deriving DecidableEq

inductive Level where
  | trace
  | debug

def Level.name : Level → String
  | .trace => "TRACE"
  | .debug => "DEBUG"

namespace Event

def isOfPool : Event → Bool
  | claimed .. | reusedInPlace | allocated .. => true
  | _ => false

/-- What happens once per stream or buffer size is worth more attention than what happens at
every refill. -/
def level : Event → Level
  | adopted .. | growing .. | ended .. | failed .. => .debug
  | _ => .trace

def message : Event → String
  | adopted count => s!"adopted {count} bytes from source"
  | toppingUp filled capacity => s!"topping up {filled} of {capacity} bytes"
  | growing capacity target => s!"growing buffer from {capacity} to {target} bytes"
  | swapping offset carried => s!"swapping buffer at offset {offset}, carrying {carried} bytes"
  | delivered count => s!"read {count} bytes"
  | ended offset => s!"end of stream at offset {offset}"
  | failed offset cause => s!"source failed at offset {offset}: {cause.text}"
  | claimed slot capacity needed => s!"reusing block {slot} (capacity {capacity}) for {needed}"
  | reusedInPlace => "reusing retired buffer in place"
  | allocated needed slot => s!"allocating {needed} bytes (block {slot})"

/-- The line that a log shows for the event. -/
def line (event : Event) : String :=
  let origin := if event.isOfPool then "pool" else "lexer"
  s!"{event.level.name} lexbuf::{origin}: {origin}: {event.message}"

end Event
end StreamCursor
