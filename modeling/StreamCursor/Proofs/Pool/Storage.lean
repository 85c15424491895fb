import Mathlib.Data.List.Perm.Basic
import StreamCursor.Proofs.Journal
import StreamCursor.Proofs.Pool.Ledger
import StreamCursor.Proofs.Pool.Stock

/-! Where storage comes from and where it goes. Main statements: an exchange takes the first block
that serves, and no buffer is lost or added by it, unless nothing serves: then it adds a new one of
just the capacity that was asked for. -/

namespace StreamCursor
namespace Pool

/-- The block may be claimed for this capacity. -/
def Serves (pool : Pool) (needed slot : Nat) : Prop :=
  ∃ block, pool.blocks[slot]? = some block ∧ block.active = false ∧ needed ≤ block.buffer.capacity

/-- Neither a block nor the retired buffer itself can be used. -/
def Misses (pool : Pool) (retired : Buffer) (carryFrom needed : Nat) : Prop :=
  (∀ slot, ¬pool.Serves needed slot) ∧
    ¬(pool.chain = [] ∧ carryFrom ≤ pool.consumed ∧ needed ≤ retired.capacity)

variable {pool after : Pool} {retired fresh : Buffer} {carryFrom needed slot : Nat}
  {events : List Event}

theorem serves_iff (hslot : slot < pool.blocks.size) : pool.Serves needed slot ↔
    (!pool.blocks[slot].active && decide (needed ≤ pool.blocks[slot].buffer.capacity)) = true := by
  simp [Serves, hslot]

theorem Serves.lt_size (h : pool.Serves needed slot) : slot < pool.blocks.size := by
  obtain ⟨block, hblock, -⟩ := h
  exact (Array.getElem?_eq_some_iff.1 hblock).1

theorem reusable?_eq_none_iff :
    pool.reusable? needed = none ↔ ∀ slot, ¬pool.Serves needed slot := by
  rw [reusable?, List.findIdx?_eq_none_iff]
  constructor
  · intro h slot hserves
    have hslot := hserves.lt_size
    have hfits := (serves_iff hslot).1 hserves
    rw [h _ (Array.getElem_mem_toList hslot)] at hfits
    cases hfits
  · intro h block hblock
    obtain ⟨slot, hslot, rfl⟩ := Array.mem_iff_getElem.1 (Array.mem_toList_iff.1 hblock)
    exact Bool.eq_false_iff.2 fun hfits => h slot ((serves_iff hslot).2 hfits)

/-- The block that is claimed is the first one that serves. -/
theorem reusable?_eq_some_iff : pool.reusable? needed = some slot ↔
    pool.Serves needed slot ∧ ∀ other < slot, ¬pool.Serves needed other := by
  rw [reusable?, List.findIdx?_eq_some_iff_getElem]
  constructor
  · rintro ⟨hslot, hfits, hfirst⟩
    rw [Array.length_toList] at hslot
    refine ⟨(serves_iff hslot).2 hfits, fun other hlt hserves => ?_⟩
    exact hfirst other hlt ((serves_iff hserves.lt_size).1 hserves)
  · rintro ⟨hserves, hfirst⟩
    refine ⟨hserves.lt_size, (serves_iff hserves.lt_size).1 hserves, fun other hlt hfits => ?_⟩
    exact hfirst other hlt ((serves_iff (Nat.lt_trans hlt hserves.lt_size)).2 hfits)

theorem bufferAt_retire_self (hslot : slot < pool.blocks.size) :
    (pool.retire slot retired carryFrom).bufferAt slot =
      ⟨retired.bytes.take carryFrom, retired.capacity⟩ := by
  rw [retire, bufferAt_reclaim, bufferAt_store_self hslot]

theorem bufferAt_retire_ne {other : Nat} (hne : slot ≠ other) :
    (pool.retire slot retired carryFrom).bufferAt other = pool.bufferAt other := by
  rw [retire, bufferAt_reclaim, bufferAt_store_ne hne]

/-- Whatever is put in place of the buffer of a block, the two have only changed places. -/
theorem capacities_retire_perm (hslot : slot < pool.blocks.size) :
    ((pool.bufferAt slot).capacity :: (pool.retire slot retired carryFrom).capacities).Perm
      (retired.capacity :: pool.capacities) := by
  obtain ⟨hlt, hcapacity⟩ := List.getElem?_eq_some_iff.1 (capacities_getElem? pool hslot)
  have hset := List.set_perm_cons_eraseIdx hlt retired.capacity
  have hget := List.getElem_cons_eraseIdx_perm hlt
  rw [capacities_retire, ← hcapacity]
  calc
    List.Perm (pool.capacities[slot] :: pool.capacities.set slot retired.capacity)
      (pool.capacities[slot] :: retired.capacity :: pool.capacities.eraseIdx slot) := hset.cons _
    List.Perm _ (retired.capacity :: pool.capacities[slot] :: pool.capacities.eraseIdx slot) :=
      .swap ..
    List.Perm _ (retired.capacity :: pool.capacities) := hget.cons _

namespace Exchanged

variable (he : Exchanged pool retired carryFrom needed events fresh after)

include he

/-- The first block that serves takes the bytes to keep and gives its storage for the others. -/
theorem claims_first (hserves : pool.Serves needed slot)
    (hfirst : ∀ other < slot, ¬pool.Serves needed other) :
    events = [.claimed slot (pool.bufferAt slot).capacity needed] ∧
      fresh.capacity = (pool.bufferAt slot).capacity ∧
      after.bufferAt slot = ⟨retired.bytes.take carryFrom, retired.capacity⟩ ∧
      ∀ other, slot ≠ other → after.bufferAt other = pool.bufferAt other := by
  have hreuse := reusable?_eq_some_iff.2 ⟨hserves, hfirst⟩
  cases he with
  | claimed hslot =>
    cases hreuse.symm.trans hslot
    exact ⟨rfl, rfl, bufferAt_retire_self hserves.lt_size, fun other hne => bufferAt_retire_ne hne⟩
  | inPlace hnone => cases hreuse.symm.trans hnone
  | fresh hnone => cases hreuse.symm.trans hnone

/-- Where nothing serves, a new buffer of the capacity asked for is all that is added. -/
theorem capacities_of_misses (hmiss : pool.Misses retired carryFrom needed) :
    events = [.allocated needed pool.blocks.size] ∧ after.blocks.size = pool.blocks.size + 1 ∧
      (fresh.capacity :: after.capacities).Perm
        (needed :: retired.capacity :: pool.capacities) := by
  have hnone := reusable?_eq_none_iff.2 hmiss.1
  cases he with
  | claimed hslot => cases hnone.symm.trans hslot
  | inPlace _ hchain hconsumed hroom => exact absurd ⟨hchain, hconsumed, hroom⟩ hmiss.2
  | fresh =>
    refine ⟨rfl, ?_, ?_⟩
    · rw [size_blocks_retire, Pool.grown, Array.size_push]
    · rw [capacities_grown_retire]
      exact (List.perm_append_singleton ..).cons _

/-- Otherwise the exchange adds nothing. -/
theorem capacities_of_not_misses (hmiss : ¬pool.Misses retired carryFrom needed) :
    obtainedBytes events = 0 ∧ after.blocks.size = pool.blocks.size ∧
      (fresh.capacity :: after.capacities).Perm (retired.capacity :: pool.capacities) := by
  cases he with
  | claimed hslot =>
    exact ⟨rfl, size_blocks_retire .., capacities_retire_perm (reusable?_some hslot).1⟩
  | inPlace => exact ⟨rfl, rfl, .refl _⟩
  | fresh hnone hplace =>
    rw [List.isEmpty_iff] at hplace
    exact absurd ⟨reusable?_eq_none_iff.1 hnone, hplace⟩ hmiss

/-- What the pool and the buffer in use have together grows by what is obtained. -/
theorem retained_eq : after.occupancy.retained + fresh.capacity =
    pool.occupancy.retained + retired.capacity + obtainedBytes events := by
  have hretained : ∀ pool : Pool, pool.occupancy.retained = pool.capacities.sum := fun _ => rfl
  rw [hretained, hretained]
  by_cases hmiss : pool.Misses retired carryFrom needed
  · obtain ⟨rfl, -, hperm⟩ := he.capacities_of_misses hmiss
    have hsum := hperm.sum_nat
    simp only [List.sum_cons] at hsum
    simp only [obtainedBytes, List.map_cons, List.map_nil, List.sum_cons, List.sum_nil,
      Event.obtained]
    omega
  · obtain ⟨hnone, -, hperm⟩ := he.capacities_of_not_misses hmiss
    have hsum := hperm.sum_nat
    simp only [List.sum_cons] at hsum
    omega

end Exchanged

end Pool
end StreamCursor
