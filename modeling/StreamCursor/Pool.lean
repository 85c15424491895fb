import StreamCursor.Buffer
import StreamCursor.Event
import StreamCursor.Fault
import StreamCursor.Text.Record

/-! A pool that recycles buffers. A buffer whose bytes were all taken is exchanged for another one;
its bytes stay in the pool, oldest first, until they are reported consumed, and only then may its
storage be handed out again. -/

namespace StreamCursor

structure Block where
  buffer : Buffer := .empty
  /-- Whether the block holds bytes not yet consumed. -/
  active : Bool := false
  deriving DecidableEq

structure Pool where
  /-- All storage the pool owns. A block is named by its place. -/
  blocks : Array Block := #[]
  /-- The blocks that hold bytes not yet consumed, the oldest first. -/
  chain : List Nat := []
  /-- How much was consumed of the oldest block on the chain. While the chain is empty, these
  bytes are yet to come, with the next buffer retired. -/
  consumed : Nat := 0
  deriving DecidableEq

/-- How full a pool is. -/
structure Occupancy where
  blocks : Nat
  /-- Blocks on the chain. -/
  inFlight : Nat
  /-- Bytes on the chain that were not consumed. -/
  unconsumed : Nat
  /-- The capacities of all blocks together. -/
  retained : Nat
  deriving DecidableEq

/-- Where the storage for a request comes from. -/
inductive Storage where
  | block (slot : Nat)
  /-- The retired buffer itself, of which every byte to be kept was consumed. -/
  | inPlace
  | fresh
  deriving DecidableEq

namespace Pool

def bufferAt (pool : Pool) (slot : Nat) : Buffer := (pool.blocks[slot]?.getD {}).buffer

/-- The block after the given one on the chain. -/
def successor? (pool : Pool) (slot : Nat) : Option Nat :=
  match pool.chain.dropWhile (· != slot) with
  | _ :: next :: _ => some next
  | _ => none

def oldest? (pool : Pool) : Option Nat := pool.chain.head?

def newest? (pool : Pool) : Option Nat := pool.chain.getLast?

/-- The bytes on the chain, oldest first, those consumed of the oldest block included. -/
def retiredBytes (pool : Pool) : Bytes :=
  (pool.chain.map fun slot => (pool.bufferAt slot).bytes).flatten

def occupancy (pool : Pool) : Occupancy where
  blocks := pool.blocks.size
  inFlight := pool.chain.length
  unconsumed :=
    if pool.chain.isEmpty then 0
    else (pool.chain.map fun slot => (pool.bufferAt slot).size).sum - pool.consumed
  retained := (pool.blocks.toList.map (·.buffer.capacity)).sum

/-- Takes every block off the front of the chain that is consumed to its end. What is left of
`consumed` lies before the end of the oldest block, unless none is left. -/
def reclaimFrom (blocks : Array Block) : (chain : List Nat) → (consumed : Nat) → Pool
  | [], consumed => ⟨blocks, [], consumed⟩
  | slot :: chain, consumed =>
      let size := (blocks[slot]?.getD {}).buffer.size
      if consumed < size then ⟨blocks, slot :: chain, consumed⟩
      else reclaimFrom (blocks.modify slot ({ · with active := false })) chain (consumed - size)

def reclaim (pool : Pool) : Pool := reclaimFrom pool.blocks pool.chain pool.consumed

/-- Reports `n` more bytes consumed. -/
def consume (pool : Pool) (n : Nat) : Pool :=
  { pool with consumed := pool.consumed + n }.reclaim

/-- The first block that is not in use and large enough. -/
def reusable? (pool : Pool) (needed : Nat) : Option Nat :=
  pool.blocks.toList.findIdx? fun block => !block.active && needed ≤ block.buffer.capacity

/-- The retired buffer serves again only if nothing in the pool is unconsumed and none of its own
bytes before `carryFrom` are. -/
def storageFor (pool : Pool) (retired : Buffer) (carryFrom needed : Nat) : Storage :=
  match pool.reusable? needed with
  | some slot => .block slot
  | none =>
      if pool.chain.isEmpty ∧ carryFrom ≤ pool.consumed ∧ needed ≤ retired.capacity then .inPlace
      else .fresh

/-- Puts a buffer into a block and, unless it is empty, at the new end of the chain. -/
def store (pool : Pool) (slot : Nat) (buffer : Buffer) : Pool :=
  let active := !buffer.bytes.isEmpty
  { pool with
    blocks := pool.blocks.setIfInBounds slot { buffer, active }
    chain := if active then pool.chain ++ [slot] else pool.chain }

/-- Keeps the retired buffer's bytes before `carryFrom` in the block `slot`. -/
def retire (pool : Pool) (slot : Nat) (retired : Buffer) (carryFrom : Nat) : Pool :=
  (pool.store slot { retired with bytes := retired.bytes.take carryFrom }).reclaim

/-- Exchanges a retired buffer for one of at least the needed capacity. The bytes before
`carryFrom` stay in the pool, the others are carried to the front of the buffer that comes back.
An exchange that fails may have been reported before. -/
def exchange (pool : Pool) (retired : Buffer) (carryFrom needed : Nat) :
    List Event × Except Fault (Buffer × Pool) :=
  let carried := retired.bytes.drop carryFrom
  if retired.size < carryFrom then ([], .error .carryStart)
  else if needed < carried.length then ([], .error .carryLength)
  else match pool.storageFor retired carryFrom needed with
  | .block slot =>
      let capacity := (pool.bufferAt slot).capacity
      ([.claimed slot capacity needed],
        .ok (⟨carried, capacity⟩, pool.retire slot retired carryFrom))
  | .inPlace =>
      ([.reusedInPlace],
        .ok (⟨carried, retired.capacity⟩, { pool with consumed := pool.consumed - carryFrom }))
  | .fresh =>
      let slot := pool.blocks.size
      ([.allocated needed slot],
        if maxCapacity < needed then .error .capacity
        else
          let grown := { pool with blocks := pool.blocks.push {} }
          .ok (⟨carried, needed⟩, grown.retire slot retired carryFrom))

/-- Exchanges a retired buffer whose bytes all stay in the pool. -/
def swap (pool : Pool) (retired : Buffer) (needed : Nat) :
    List Event × Except Fault (Buffer × Pool) :=
  pool.exchange retired retired.size needed

def describeBlock (pool : Pool) (block : Block) (slot : Nat) : String :=
  Text.record "Block"
    [("buf", Text.byteList block.buffer.bytes),
      ("next", Text.optional ((pool.successor? slot).map toString)),
      ("active", Text.truth block.active)]

def describe (pool : Pool) : String :=
  Text.record "BufferPool"
    [("blocks", Text.bracketed
        (pool.blocks.toList.zipIdx.map fun (block, slot) => pool.describeBlock block slot)),
      ("head", Text.optional (pool.newest?.map toString)),
      ("tail", Text.optional (pool.oldest?.map toString)),
      ("pos", toString pool.consumed)]

@[simp] theorem size_blocks_reclaimFrom (blocks : Array Block) (chain : List Nat)
    (consumed : Nat) : (reclaimFrom blocks chain consumed).blocks.size = blocks.size := by
  fun_induction reclaimFrom blocks chain consumed with
  | case1 | case2 => rfl
  | case3 _ _ _ _ _ _ ih => exact ih.trans (Array.size_modify ..)

/-- What is consumed changes no block's storage. -/
theorem buffers_reclaimFrom (blocks : Array Block) (chain : List Nat) (consumed : Nat) :
    (reclaimFrom blocks chain consumed).blocks.map (·.buffer) = blocks.map (·.buffer) := by
  fun_induction reclaimFrom blocks chain consumed with
  | case1 | case2 => rfl
  | case3 blocks slot _ _ _ _ ih =>
    rw [ih]
    ext i h h'
    · simp
    · simp only [Array.getElem_map, Array.getElem_modify]
      split <;> rfl

theorem buffers_consume (pool : Pool) (n : Nat) :
    (pool.consume n).blocks.map (·.buffer) = pool.blocks.map (·.buffer) :=
  buffers_reclaimFrom ..

end Pool

def Occupancy.describe (occupancy : Occupancy) : String :=
  Text.record "PoolStats"
    [("blocks", toString occupancy.blocks), ("in_flight", toString occupancy.inFlight),
      ("unconsumed", toString occupancy.unconsumed), ("retained", toString occupancy.retained)]

end StreamCursor
