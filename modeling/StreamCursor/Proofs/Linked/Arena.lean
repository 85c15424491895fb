import StreamCursor.Proofs.Checked.Range
import StreamCursor.Proofs.Pool.Accounting

/-! A pool whose chain is kept by links: every block names the one after it, and the pool names the
two ends. Every block that is looked up and every difference is checked, and a loop along the links
may take no more turns than there are blocks, and one to find the end. -/

namespace StreamCursor

/-- A block that names the block after it on the chain. -/
structure Node extends Block where
  next : Option Nat := none
  deriving DecidableEq

/-- The block once its bytes were all consumed. -/
def Node.retired (node : Node) : Node := { node with next := none, active := false }

def Node.before (node : Node) (slot : Nat) : Node := { node with next := some slot }

structure Arena where
  nodes : Array Node := #[]
  /-- The newest block on the chain. -/
  head : Option Nat := none
  /-- The oldest block on the chain. -/
  tail : Option Nat := none
  /-- How much was consumed of the oldest block, or in advance if there is none. -/
  consumed : Nat := 0
  deriving DecidableEq

namespace Arena

open Checked (require sub slice)

def node (arena : Arena) (slot : Nat) : Checked Node :=
  match arena.nodes[slot]? with
  | some node => .ok node
  | none => .error .index

def put (arena : Arena) (slot : Nat) (node : Node) : Arena :=
  { arena with nodes := arena.nodes.setIfInBounds slot node }

def next? (arena : Arena) (slot : Nat) : Option Nat := arena.nodes[slot]?.bind (·.next)

/-- Takes the oldest block off the chain for as long as it is consumed to its end. -/
def drainWithin : (turns : Nat) → Arena → Checked Arena
  | 0, _ => .error .endless
  | turns + 1, arena =>
      match arena.tail with
      | none => .ok { arena with head := none }
      | some slot => do
          let oldest ← arena.node slot
          if arena.consumed < oldest.buffer.size then return arena
          let consumed ← sub arena.consumed oldest.buffer.size
          drainWithin turns
            { arena.put slot oldest.retired with tail := oldest.next, consumed }

def drain (arena : Arena) : Checked Arena := drainWithin (arena.nodes.size + 1) arena

def consume (arena : Arena) (n : Nat) : Checked Arena :=
  { arena with consumed := arena.consumed + n }.drain

/-- Links a block to the new end of the chain. The block that was newest is looked up for it. -/
def link (arena : Arena) (slot : Nat) : Checked Arena := do
  let linked ← match arena.head with
    | some newest => do
        let node ← arena.node newest
        pure (arena.put newest (node.before slot))
    | none => pure arena
  return { linked with head := some slot, tail := some (linked.tail.getD slot) }

/-- Puts a buffer into a block, which is linked to the chain unless the buffer is empty. -/
def intern (arena : Arena) (slot : Nat) (buffer : Buffer) : Checked Arena := do
  let _ ← arena.node slot
  let active := !buffer.bytes.isEmpty
  let stored := arena.put slot { buffer, active }
  if active then stored.link slot else return stored

def reusable? (arena : Arena) (needed : Nat) : Option Nat :=
  arena.nodes.toList.findIdx? fun node => !node.active && needed ≤ node.buffer.capacity

def retire (arena : Arena) (slot : Nat) (retired : Buffer) (carryFrom : Nat) : Checked Arena :=
  arena.intern slot { retired with bytes := retired.bytes.take carryFrom } >>= drain

/-- Finds storage for the bytes from `carryFrom` on and keeps those before. The storage of a claimed
block is taken out of it before the retired buffer goes in. -/
def replace (arena : Arena) (retired : Buffer) (carryFrom needed : Nat) :
    Checked (Buffer × Arena) := do
  let carried ← slice retired.bytes carryFrom retired.size
  match arena.reusable? needed with
  | some slot =>
      let claimed ← arena.node slot
      let vacated := arena.put slot { claimed with buffer := .empty }
      return (⟨carried, claimed.buffer.capacity⟩, ← vacated.retire slot retired carryFrom)
  | none =>
      if arena.tail.isNone ∧ carryFrom ≤ arena.consumed ∧ needed ≤ retired.capacity then
        let consumed ← sub arena.consumed carryFrom
        return (⟨carried, retired.capacity⟩, { arena with consumed })
      else
        require (needed ≤ maxCapacity) (.fault .capacity)
        let grown := { arena with nodes := arena.nodes.push {} }
        return (⟨carried, needed⟩, ← grown.retire arena.nodes.size retired carryFrom)

def exchange (arena : Arena) (retired : Buffer) (carryFrom needed : Nat) :
    Checked (Buffer × Arena) := do
  require (carryFrom ≤ retired.size) (.fault .carryStart)
  let length ← sub retired.size carryFrom
  require (length ≤ needed) (.fault .carryLength)
  arena.replace retired carryFrom needed

/-- The blocks that following the links from a given one leads to, with that one. -/
def follow (arena : Arena) : (turns : Nat) → Option Nat → Checked (List Nat)
  | 0, _ => .error .endless
  | _ + 1, none => .ok []
  | turns + 1, some slot => do
      let node ← arena.node slot
      return slot :: (← arena.follow turns node.next)

/-- The blocks on the chain, as the links give them, the oldest first. -/
def chain (arena : Arena) : Checked (List Nat) := arena.follow (arena.nodes.size + 1) arena.tail

def occupancy (arena : Arena) : Checked Occupancy := do
  let chain ← arena.chain
  let sizes ← chain.mapM fun slot => (·.buffer.size) <$> arena.node slot
  let unconsumed ← if arena.tail.isSome then sub sizes.sum arena.consumed else pure 0
  return {
    blocks := arena.nodes.size
    inFlight := chain.length
    unconsumed
    retained := (arena.nodes.toList.map (·.buffer.capacity)).sum }

def perform (arena : Arena) : Pool.Call → Checked Arena
  | .swap retired needed => (·.2) <$> arena.exchange retired retired.size needed
  | .exchange retired carryFrom needed => (·.2) <$> arena.exchange retired carryFrom needed
  | .consume n => arena.consume n

/-- The pool after the calls, if none of them fails. -/
def run (calls : List Pool.Call) (arena : Arena := {}) : Checked Arena :=
  calls.foldlM perform arena

end Arena
end StreamCursor
