import StreamCursor.Cursor
import StreamCursor.Proofs.Pool.Exchange
import StreamCursor.Proofs.Window

/-! What a refill does to a cursor. Main statements: as long as the source has not ended, there is
a buffer for every byte that can be asked for, of exactly the capacity that the cursor asks for,
and it leaves room for a read. -/

namespace StreamCursor

namespace Reply

/-- Why a reply is the last one, if it is: the source failed or delivered nothing. -/
def ending (reply : Reply) (slot : Slot) : Option StreamEnd :=
  match reply.outcome with
  | .error cause => some cause
  | .ok _ => if (reply.delivered slot).isEmpty then some .eof else none

theorem ending_of_delivered_nil {reply : Reply} {slot : Slot} (h : reply.delivered slot = []) :
    (reply.ending slot).isSome := by
  unfold ending
  split
  · rfl
  · rw [h]
    rfl

theorem length_delivered (reply : Reply) (slot : Slot) :
    (reply.delivered slot).length =
      match reply.outcome with
      | .ok count => min count slot.size
      | .error _ => 0 := by
  unfold delivered
  cases reply.outcome with
  | error cause => rfl
  | ok count => simp

theorem take_delivered (reply : Reply) (slot : Slot) :
    (reply.leaves slot).bytes.take (reply.delivered slot).length = reply.delivered slot := by
  unfold delivered
  cases reply.outcome with
  | error cause => rfl
  | ok count =>
    dsimp only
    rw [Slot.take_eq, List.length_take, ← List.take_take, List.take_length]

end Reply

namespace Pool

theorem bufferAt_eq (pool : Pool) (slot : Nat) :
    pool.bufferAt slot = ((pool.blocks.map (·.buffer))[slot]?).getD .empty := by
  rw [bufferAt, Array.getElem?_map]
  cases pool.blocks[slot]? <;> rfl

@[simp] theorem bufferAt_reclaim (pool : Pool) (slot : Nat) :
    pool.reclaim.bufferAt slot = pool.bufferAt slot := by
  rw [bufferAt_eq, bufferAt_eq, reclaim, buffers_reclaimFrom]

@[simp] theorem bufferAt_consume (pool : Pool) (n slot : Nat) :
    (pool.consume n).bufferAt slot = pool.bufferAt slot := by
  rw [bufferAt_eq, bufferAt_eq, buffers_consume]

@[simp] theorem bufferAt_grown (pool : Pool) (slot : Nat) :
    pool.grown.bufferAt slot = pool.bufferAt slot := by
  rw [bufferAt, bufferAt, grown, Array.getElem?_push]
  split
  next h =>
    rw [h, Array.getElem?_size]
    rfl
  · rfl

theorem capacity_retire_le {pool : Pool} {slot : Nat} {retired : Buffer} {bound : Nat}
    (hblocks : ∀ other, (pool.bufferAt other).capacity ≤ bound)
    (hretired : retired.capacity ≤ bound)
    (carryFrom other : Nat) :
    ((pool.retire slot retired carryFrom).bufferAt other).capacity ≤ bound := by
  rw [retire, bufferAt_reclaim]
  by_cases h : slot = other
  · subst h
    by_cases hsize : slot < pool.blocks.size
    · rw [bufferAt_store_self hsize]
      exact hretired
    · have hunchanged : (pool.store slot
          { retired with bytes := retired.bytes.take carryFrom }).blocks = pool.blocks :=
        Array.setIfInBounds_eq_of_size_le (Nat.le_of_not_lt hsize)
      rw [bufferAt, hunchanged]
      exact hblocks slot
  · rw [bufferAt_store_ne h]
    exact hblocks other

section Capacity

variable {pool after : Pool} {retired fresh : Buffer} {carryFrom needed : Nat}
  {events : List Event}

/-- No block is larger than the buffer retired, so none that serves is larger than needed. -/
theorem Exchanged.capacity_eq (h : Exchanged pool retired carryFrom needed events fresh after)
    (hblocks : ∀ slot, (pool.bufferAt slot).capacity ≤ retired.capacity)
    (hretired : retired.capacity ≤ needed) : fresh.capacity = needed := by
  apply Nat.le_antisymm _ h.needed_le
  cases h with
  | claimed => exact Nat.le_trans (hblocks _) hretired
  | inPlace => exact hretired
  | fresh => exact Nat.le_refl _

/-- No block gets larger than the blocks and the buffer retired were. -/
theorem Exchanged.capacity_le_of_le {bound : Nat}
    (h : Exchanged pool retired carryFrom needed events fresh after)
    (hblocks : ∀ slot, (pool.bufferAt slot).capacity ≤ bound) (hretired : retired.capacity ≤ bound)
    (slot : Nat) : (after.bufferAt slot).capacity ≤ bound := by
  cases h with
  | claimed => exact capacity_retire_le hblocks hretired _ _
  | inPlace => exact hblocks slot
  | fresh => exact capacity_retire_le (by simpa using hblocks) hretired _ _

theorem Exchanged.capacity_le (h : Exchanged pool retired carryFrom needed events fresh after)
    (hblocks : ∀ slot, (pool.bufferAt slot).capacity ≤ retired.capacity)
    (hretired : retired.capacity ≤ needed) (slot : Nat) :
    (after.bufferAt slot).capacity ≤ needed :=
  h.capacity_le_of_le (fun slot => Nat.le_trans (hblocks slot) hretired) hretired slot

end Capacity
end Pool

namespace Cursor

theorem maxCapacity_pos : 0 < maxCapacity := by decide

section NextCapacity

variable {capacity reach : Nat}

theorem le_nextCapacity (h : capacity ≤ maxCapacity) : capacity ≤ nextCapacity capacity reach := by
  unfold nextCapacity
  split <;> omega

theorem lt_nextCapacity (hgrows : capacity < 2 * reach) (h : capacity < maxCapacity) :
    capacity < nextCapacity capacity reach := by
  unfold nextCapacity
  split <;> omega

theorem nextCapacity_of_le (hkeeps : 2 * reach ≤ capacity) (h : 0 < capacity) :
    nextCapacity capacity reach = capacity := by
  unfold nextCapacity
  split <;> omega

theorem nextCapacity_le (h : capacity ≤ maxCapacity) (hreach : reach < maxCapacity) :
    nextCapacity capacity reach ≤ maxCapacity := by
  unfold nextCapacity
  split <;> omega

theorem reach_lt_nextCapacity (h : 0 < capacity) (hreach : reach < maxCapacity) :
    reach < nextCapacity capacity reach := by
  unfold nextCapacity
  split <;> omega

end NextCapacity

variable {σ : Type} {c : Cursor σ} {k reach : Nat}

/-- While the source may deliver more, window and spare room fill the active buffer, and no block
of the pool is larger than it. -/
structure Sound (c : Cursor σ) : Prop where
  room : c.ended = none → c.window.stop + c.spare.size = c.capacity
  capacity_pos : c.ended = none → 0 < c.capacity
  capacity_le : c.ended = none → c.capacity ≤ maxCapacity
  blocks_le : ∀ slot, (c.pool.bufferAt slot).capacity ≤ c.capacity

/-- The window with its cursor elsewhere serves as well. -/
theorem Sound.reposition (h : c.Sound) {window : Window} (hwindow : window.bytes = c.window.bytes)
    (pending : Nat) : Sound { c with window, pending } := by
  refine ⟨fun hopen => ?_, h.capacity_pos, h.capacity_le, h.blocks_le⟩
  rw [Window.stop_of_bytes hwindow]
  exact h.room hopen

theorem Sound.consume (h : c.Sound) (n : Nat) : (c.consume n).Sound := by
  refine ⟨h.room, h.capacity_pos, h.capacity_le, ?_⟩
  intro slot
  rw [Cursor.consume, Pool.bufferAt_consume]
  exact h.blocks_le slot

/-- What an exchange reports before the pool is asked. -/
def announcement (c : Cursor σ) (reach : Nat) : List Event :=
  let target := nextCapacity c.capacity reach
  (if c.capacity < 2 * reach then [.growing c.capacity target] else []) ++
    [.swapping c.tokenOffset (c.window.mark + c.window.ahead.size)]

/-- The cursor over a buffer of the capacity that `reach` asks for, to which the bytes from the
start of the token on were carried. -/
def carriedOver (c : Cursor σ) (reach : Nat) (pool : Pool) (events : List Event) : Cursor σ :=
  { c with
    pool
    window := .ofBytes c.window.kept c.window.mark
    spare := .blank (nextCapacity c.capacity reach - c.window.kept.length)
    capacity := nextCapacity c.capacity reach
    base := c.tokenOffset }.log (c.announcement reach ++ events)

theorem Sound.exchange_eq (h : c.Sound) (hopen : c.ended = none)
    (hreach : reach < maxCapacity) :
    ∃ events pool,
      Pool.Exchanged c.pool ⟨c.window.bytes, c.capacity⟩ c.window.start
        (nextCapacity c.capacity reach) events
        ⟨c.window.kept, nextCapacity c.capacity reach⟩ pool ∧
      c.exchange reach = .ok (c.carriedOver reach pool events) := by
  have hcapacity := h.capacity_le hopen
  have hle : c.capacity ≤ nextCapacity c.capacity reach := le_nextCapacity hcapacity
  have hroom := h.room hopen
  have hstart : c.window.start ≤ (⟨c.window.bytes, c.capacity⟩ : Buffer).size := by
    rw [Buffer.size, Window.length_bytes]
    exact c.window.start_le_stop
  have hlength : (c.window.bytes.drop c.window.start).length ≤ nextCapacity c.capacity reach := by
    rw [List.length_drop, Window.length_bytes]
    omega
  have hmax : nextCapacity c.capacity reach ≤ maxCapacity := nextCapacity_le hcapacity hreach
  obtain ⟨events, fresh, pool, hex⟩ : ∃ events fresh pool,
      c.pool.exchange ⟨c.window.bytes, c.capacity⟩ c.window.start (nextCapacity c.capacity reach) =
        (events, .ok (fresh, pool)) := Pool.exchange_succeeds hstart hlength hmax
  have hexchanged := Pool.exchanged_of_exchange hex
  have hfresh : fresh = ⟨c.window.kept, nextCapacity c.capacity reach⟩ := by
    have hbytes := hexchanged.bytes_eq
    have hcap := hexchanged.capacity_eq h.blocks_le hle
    rw [Window.drop_start] at hbytes
    rw [← hbytes, ← hcap]
  subst hfresh
  refine ⟨events, pool, hexchanged, ?_⟩
  simp only [exchange, hex, Except.map]
  simp [carriedOver, announcement, Buffer.size]

theorem Sound.carriedOver (h : c.Sound) (hopen : c.ended = none) (hreach : reach < maxCapacity)
    {pool : Pool} {events : List Event}
    (he : Pool.Exchanged c.pool ⟨c.window.bytes, c.capacity⟩ c.window.start
      (nextCapacity c.capacity reach) events ⟨c.window.kept, nextCapacity c.capacity reach⟩ pool) :
    (c.carriedOver reach pool events).Sound := by
  have hcapacity := h.capacity_le hopen
  have hle : c.capacity ≤ nextCapacity c.capacity reach := le_nextCapacity hcapacity
  have hroom := h.room hopen
  constructor
  · intro _
    change (Window.ofBytes c.window.kept c.window.mark).stop +
      (nextCapacity c.capacity reach - c.window.kept.length) = nextCapacity c.capacity reach
    rw [Window.stop_ofBytes, Window.length_kept]
    simp only [Window.stop, Window.position] at hroom
    omega
  · intro _
    exact Nat.lt_of_lt_of_le (h.capacity_pos hopen) hle
  · intro _
    exact nextCapacity_le hcapacity hreach
  · exact he.capacity_le h.blocks_le hle

section Read

variable [Source σ]

/-- What the source answers when it is read next. -/
def reply (c : Cursor σ) : Reply := (Source.read c.source c.spare).1

/-- The bytes that the next read brings. -/
def arriving (c : Cursor σ) : Bytes := c.reply.delivered c.spare

theorem length_arriving_le (c : Cursor σ) : c.arriving.length ≤ c.spare.size :=
  Reply.length_delivered_le ..

/-- A read changes the source, the room it is given and the end of the window, and it may learn
that the stream has ended. -/
theorem read_eq (c : Cursor σ) :
    ∃ ended events, (c.ended = none → ended = c.reply.ending c.spare) ∧
      c.read = { c with
        source := (Source.read c.source c.spare).2
        ended
        window := c.window.extend c.arriving
        spare := (c.reply.leaves c.spare).drop c.arriving.length }.log events := by
  unfold read arriving reply
  rcases Source.read c.source c.spare with ⟨⟨written, cause | count⟩, source⟩
  · exact ⟨_, _, fun _ => rfl, rfl⟩
  · dsimp only [Reply.ending]
    by_cases hnone : (Reply.delivered ⟨written, .ok count⟩ c.spare).isEmpty
    · rw [if_pos hnone, if_pos hnone]
      exact ⟨_, _, fun _ => rfl, rfl⟩
    · rw [if_neg hnone, if_neg hnone]
      exact ⟨c.ended, _, id, rfl⟩

@[simp] theorem source_read (c : Cursor σ) : c.read.source = (Source.read c.source c.spare).2 := by
  obtain ⟨_, _, -, h⟩ := c.read_eq
  rw [h]
  rfl

@[simp] theorem window_read (c : Cursor σ) : c.read.window = c.window.extend c.arriving := by
  obtain ⟨_, _, -, h⟩ := c.read_eq
  rw [h]
  rfl

@[simp] theorem spare_read (c : Cursor σ) :
    c.read.spare = (c.reply.leaves c.spare).drop c.arriving.length := by
  obtain ⟨_, _, -, h⟩ := c.read_eq
  rw [h]
  rfl

@[simp] theorem pool_read (c : Cursor σ) : c.read.pool = c.pool := by
  obtain ⟨_, _, -, h⟩ := c.read_eq
  rw [h]
  rfl

@[simp] theorem capacity_read (c : Cursor σ) : c.read.capacity = c.capacity := by
  obtain ⟨_, _, -, h⟩ := c.read_eq
  rw [h]
  rfl

@[simp] theorem pending_read (c : Cursor σ) : c.read.pending = c.pending := by
  obtain ⟨_, _, -, h⟩ := c.read_eq
  rw [h]
  rfl

@[simp] theorem base_read (c : Cursor σ) : c.read.base = c.base := by
  obtain ⟨_, _, -, h⟩ := c.read_eq
  rw [h]
  rfl

theorem ended_read (hopen : c.ended = none) : c.read.ended = c.reply.ending c.spare := by
  obtain ⟨_, _, hended, h⟩ := c.read_eq
  rw [h]
  exact hended hopen

theorem Sound.read (h : c.Sound) (hopen : c.ended = none) : c.read.Sound := by
  have hroom := h.room hopen
  have hfit := length_arriving_le c
  constructor
  · intro _
    rw [window_read, spare_read, capacity_read, Window.stop_extend]
    change _ + (c.spare.size - c.arriving.length) = _
    omega
  · intro _
    rw [capacity_read]
    exact h.capacity_pos hopen
  · intro _
    rw [capacity_read]
    exact h.capacity_le hopen
  · rw [pool_read, capacity_read]
    exact h.blocks_le

end Read
end Cursor
end StreamCursor
