import StreamCursor.Proofs.Cursor.Refill
import StreamCursor.Proofs.Pool.Accounting

/-! How many blocks of one capacity a pool keeps. Main statement: an exchange that asks for the
capacity of the buffer retired leaves no more blocks of that capacity than there were before or
than are in use afterwards. -/

namespace StreamCursor
namespace Pool

/-- The capacities of all blocks. -/
def capacities (pool : Pool) : List Nat := pool.blocks.toList.map (·.buffer.capacity)

/-- How many blocks have just this capacity. -/
def stock (pool : Pool) (capacity : Nat) : Nat := pool.capacities.count capacity

section Capacities

variable {pool : Pool}

theorem capacities_eq (pool : Pool) :
    pool.capacities = (pool.blocks.map (·.buffer)).toList.map (·.capacity) := by
  simp [capacities]

@[simp] theorem capacities_reclaim (pool : Pool) : pool.reclaim.capacities = pool.capacities := by
  rw [capacities_eq, reclaim, buffers_reclaimFrom, ← capacities_eq]

@[simp] theorem capacities_consume (pool : Pool) (n : Nat) :
    (pool.consume n).capacities = pool.capacities := by
  rw [capacities_eq, buffers_consume, ← capacities_eq]

theorem capacities_retire (pool : Pool) (slot : Nat) (retired : Buffer) (carryFrom : Nat) :
    (pool.retire slot retired carryFrom).capacities =
      pool.capacities.set slot retired.capacity := by
  rw [retire, capacities_reclaim]
  simp [capacities, store, List.map_set]

theorem capacities_grown_retire (pool : Pool) (retired : Buffer) (carryFrom : Nat) :
    (pool.grown.retire pool.blocks.size retired carryFrom).capacities =
      pool.capacities ++ [retired.capacity] := by
  have hlength : pool.blocks.size = pool.capacities.length := by simp [capacities]
  have hgrown : pool.grown.capacities = pool.capacities ++ [0] := by
    simp [capacities, grown, Buffer.empty]
  rw [capacities_retire, hgrown, hlength]
  simp

theorem capacities_getElem? (pool : Pool) {slot : Nat} (hslot : slot < pool.blocks.size) :
    pool.capacities[slot]? = some (pool.bufferAt slot).capacity := by
  simp [capacities, bufferAt, hslot]

theorem capacities_eq_range (pool : Pool) :
    pool.capacities =
      (List.range pool.blocks.size).map fun slot => (pool.bufferAt slot).capacity := by
  apply List.ext_getElem?
  intro slot
  by_cases hslot : slot < pool.blocks.size
  · rw [capacities_getElem? pool hslot]
    simp [hslot]
  · simp [capacities, Nat.le_of_not_lt hslot]

/-- The blocks of one capacity are no more than those in use, if they all are. -/
theorem WellFormed.stock_le (h : pool.WellFormed) {capacity : Nat}
    (hactive : ∀ slot < pool.blocks.size, (pool.bufferAt slot).capacity = capacity →
      activeAt pool.blocks slot = true) : pool.stock capacity ≤ pool.chain.length := by
  have hstock : pool.stock capacity = ((List.range pool.blocks.size).filter fun slot =>
      (pool.bufferAt slot).capacity == capacity).length := by
    rw [stock, capacities_eq_range, List.count, List.countP_map, List.countP_eq_length_filter]
    rfl
  rw [hstock]
  have hnodup : ((List.range pool.blocks.size).filter fun slot =>
      (pool.bufferAt slot).capacity == capacity).Nodup := List.nodup_range.filter _
  apply hnodup.length_le_of_subset
  intro slot hslot
  simp only [List.mem_filter, List.mem_range, beq_iff_eq] at hslot
  exact (h.mem_chain_iff slot).2 (hactive slot hslot.1 hslot.2)

theorem active_of_reusable?_none {needed : Nat} (h : pool.reusable? needed = none) {slot : Nat}
    (hslot : slot < pool.blocks.size) (hneeded : needed ≤ (pool.bufferAt slot).capacity) :
    activeAt pool.blocks slot = true := by
  have hnone := List.findIdx?_eq_none_iff.1 h pool.blocks[slot] (Array.getElem_mem_toList hslot)
  simp only [bufferAt, hslot, Array.getElem?_eq_getElem, Option.getD_some] at hneeded
  simpa [activeAt, hslot, hneeded] using hnone

theorem stock_eq_zero {capacity : Nat} (h : ∀ other ∈ pool.capacities, other ≠ capacity) :
    pool.stock capacity = 0 := by
  rw [stock, List.count_eq_zero]
  intro hmem
  exact h capacity hmem rfl

theorem mem_capacities_le {bound : Nat} (h : ∀ slot, (pool.bufferAt slot).capacity ≤ bound) :
    ∀ capacity ∈ pool.capacities, capacity ≤ bound := by
  intro capacity hmem
  rw [capacities_eq_range] at hmem
  obtain ⟨slot, -, rfl⟩ := List.mem_map.1 hmem
  exact h slot

end Capacities
section Exchanged

variable {pool after : Pool} {portions : List Bytes} {freed : Nat} {retired fresh : Buffer}
  {carryFrom needed : Nat} {events : List Event}

/-- The chain is not settled further while its oldest block holds bytes not yet consumed. -/
theorem Accounts.settle_append (h : pool.Accounts portions freed) (hchain : pool.chain ≠ [])
    (more : List Bytes) : Backlog.settle (pool.segments ++ more) pool.consumed =
      ⟨pool.segments ++ more, pool.consumed⟩ := by
  obtain ⟨slot, chain, hsplit⟩ := List.exists_cons_of_ne_nil hchain
  have hlt : pool.consumed < (pool.bufferAt slot).bytes.length := h.consumed_lt hsplit
  rw [segments, hsplit, List.map_cons, List.cons_append, Backlog.settle, if_pos hlt]

theorem length_segments (pool : Pool) : pool.backlog.segments.length = pool.chain.length := by
  simp [backlog, segments]

/-- No exchange takes a block out of use. -/
theorem Exchanged.length_chain_le
    (he : Exchanged pool retired carryFrom needed events fresh after)
    (h : pool.Accounts portions freed) (hstart : carryFrom ≤ retired.size) :
    pool.chain.length ≤ after.chain.length := by
  by_cases hchain : pool.chain = []
  · simp [hchain]
  · rw [← length_segments after, he.backlog_eq h.toWellFormed hstart, h.settle_append hchain]
    simp [segments]

/-- The bytes retired take a block of their own, unless they were consumed in advance. -/
theorem Exchanged.length_chain
    (he : Exchanged pool retired carryFrom needed events fresh after)
    (h : pool.Accounts portions freed) (hstart : carryFrom ≤ retired.size) (hpos : 0 < carryFrom)
    (hahead : pool.chain = [] → pool.consumed < carryFrom) :
    after.chain.length = pool.chain.length + 1 := by
  have hlength : (retired.bytes.take carryFrom).length = carryFrom := List.length_take_of_le hstart
  have hne : retired.bytes.take carryFrom ≠ [] := by
    rw [← List.length_pos_iff]
    omega
  rw [← length_segments after, he.backlog_eq h.toWellFormed hstart, segmentOf, if_neg hne]
  by_cases hchain : pool.chain = []
  · have hlt := hahead hchain
    have hnil : pool.segments = [] := by simp [segments, hchain]
    rw [hnil, List.nil_append, Backlog.settle, if_pos (by omega), hchain]
    rfl
  · rw [h.settle_append hchain]
    simp [segments]

theorem size_blocks_retire (pool : Pool) (slot : Nat) (retired : Buffer) (carryFrom : Nat) :
    (pool.retire slot retired carryFrom).blocks.size = pool.blocks.size := by
  rw [retire, reclaim, size_blocks_reclaimFrom]
  simp [store]

/-- A block is added only if all blocks that would serve are in use. -/
theorem Exchanged.active_of_added
    (he : Exchanged pool retired carryFrom needed events fresh after)
    (hadded : pool.blocks.size < after.blocks.size) {slot : Nat} (hslot : slot < pool.blocks.size)
    (hneeded : needed ≤ (pool.bufferAt slot).capacity) : activeAt pool.blocks slot = true := by
  cases he with
  | claimed =>
    rw [size_blocks_retire] at hadded
    exact absurd hadded (Nat.lt_irrefl _)
  | inPlace => exact absurd hadded (Nat.lt_irrefl _)
  | fresh hnone => exact active_of_reusable?_none hnone hslot hneeded

/-- A larger buffer is a new one, and no block in the pool has its capacity. -/
theorem Exchanged.stock_of_lt (he : Exchanged pool retired carryFrom needed events fresh after)
    (hblocks : ∀ slot, (pool.bufferAt slot).capacity ≤ retired.capacity)
    (hlt : retired.capacity < needed) : after.stock needed = 0 := by
  cases he with
  | @claimed slot hslot =>
    have hfits := (reusable?_some hslot).2.2
    have hle := hblocks slot
    omega
  | inPlace _ _ _ hroom => omega
  | fresh =>
    apply stock_eq_zero
    intro other hother
    rw [capacities_grown_retire, List.mem_append, List.mem_singleton] at hother
    rcases hother with hother | rfl
    · have hle := mem_capacities_le hblocks other hother
      omega
    · omega

/-- A buffer of the same capacity is new only if all blocks of that capacity are in use. Otherwise
it comes from a block that takes the retired one in. -/
theorem Exchanged.stock_le
    (he : Exchanged pool retired carryFrom retired.capacity events fresh after)
    (h : pool.Accounts portions freed)
    (hblocks : ∀ slot, (pool.bufferAt slot).capacity ≤ retired.capacity)
    (hstart : carryFrom ≤ retired.size) (hpos : 0 < carryFrom) :
    after.stock retired.capacity ≤ pool.stock retired.capacity ∨
      after.stock retired.capacity ≤ after.chain.length := by
  cases he with
  | @claimed slot hslot =>
    left
    obtain ⟨hsize, -, hfits⟩ := reusable?_some hslot
    have hsame : pool.capacities.set slot retired.capacity = pool.capacities := by
      obtain ⟨hlt, hcapacity⟩ := List.getElem?_eq_some_iff.1 (capacities_getElem? pool hsize)
      rw [← Nat.le_antisymm (hblocks slot) hfits, ← hcapacity]
      exact List.set_getElem_self hlt
    rw [stock, capacities_retire, hsame]
    exact Nat.le_refl _
  | inPlace =>
    exact .inl (Nat.le_refl _)
  | fresh hnone hplace hmax =>
    right
    have hbefore : pool.stock retired.capacity ≤ pool.chain.length :=
      h.stock_le fun slot hslot hcapacity =>
        active_of_reusable?_none hnone hslot (Nat.le_of_eq hcapacity.symm)
    have hahead : pool.chain = [] → pool.consumed < carryFrom := by
      intro hchain
      simpa [hchain] using hplace
    have hlength := Exchanged.length_chain (.fresh hnone hplace hmax) h hstart hpos hahead
    have hstock : (pool.grown.retire pool.blocks.size retired carryFrom).stock retired.capacity =
        pool.stock retired.capacity + 1 := by
      simp [stock, capacities_grown_retire]
    omega

end Exchanged

end Pool
end StreamCursor
