import StreamCursor.Proofs.Checked.Range
import StreamCursor.Proofs.Pool.Accounting

/-! The operations of a pool with every step checked: each block that is looked up, each
difference, and the two conditions of an exchange. Main statements: on a pool in order none of the
checks fails, so that the checked operations are the plain ones. -/

namespace StreamCursor
namespace Pool

open Checked (require sub slice)

def block (blocks : Array Block) (slot : Nat) : Checked Block :=
  match blocks[slot]? with
  | some block => .ok block
  | none => .error .index

def reclaimFromChecked (blocks : Array Block) :
    (chain : List Nat) → (consumed : Nat) → Checked Pool
  | [], consumed => .ok ⟨blocks, [], consumed⟩
  | slot :: chain, consumed => do
      let oldest ← block blocks slot
      if consumed < oldest.buffer.size then return ⟨blocks, slot :: chain, consumed⟩
      else
        let rest ← sub consumed oldest.buffer.size
        reclaimFromChecked (blocks.modify slot ({ · with active := false })) chain rest

def reclaimChecked (pool : Pool) : Checked Pool :=
  reclaimFromChecked pool.blocks pool.chain pool.consumed

def consumeChecked (pool : Pool) (n : Nat) : Checked Pool :=
  { pool with consumed := pool.consumed + n }.reclaimChecked

/-- The newest block is looked up to link the next one to it. -/
def storeChecked (pool : Pool) (slot : Nat) (buffer : Buffer) : Checked Pool := do
  let _ ← block pool.blocks slot
  match pool.newest? with
  | some newest =>
      let _ ← block pool.blocks newest
      return pool.store slot buffer
  | none => return pool.store slot buffer

/-- Keeps the retired buffer's bytes before `carryFrom` in the block `slot`, and carries the others
over to a buffer of the given capacity. -/
def retireChecked (pool : Pool) (slot : Nat) (retired : Buffer) (carryFrom capacity : Nat) :
    Checked (Buffer × Pool) := do
  let carried ← slice retired.bytes carryFrom retired.size
  let stored ← pool.storeChecked slot { retired with bytes := retired.bytes.take carryFrom }
  return (⟨carried, capacity⟩, ← stored.reclaimChecked)

/-- An exchange, of which even the request has to be one that could be met afresh. -/
def exchangeChecked (pool : Pool) (retired : Buffer) (carryFrom needed : Nat) :
    Checked (Buffer × Pool) := do
  require (carryFrom ≤ retired.size) (.fault .carryStart)
  let carried ← sub retired.size carryFrom
  require (carried ≤ needed) (.fault .carryLength)
  require (needed ≤ maxCapacity) (.fault .capacity)
  match pool.storageFor retired carryFrom needed with
  | .block slot =>
      let claimed ← block pool.blocks slot
      pool.retireChecked slot retired carryFrom claimed.buffer.capacity
  | .inPlace =>
      let consumed ← sub pool.consumed carryFrom
      let bytes ← slice retired.bytes carryFrom retired.size
      return (⟨bytes, retired.capacity⟩, { pool with consumed })
  | .fresh => pool.grown.retireChecked pool.blocks.size retired carryFrom needed

def occupancyChecked (pool : Pool) : Checked Occupancy := do
  let sizes ← pool.chain.mapM fun slot => (·.buffer.size) <$> block pool.blocks slot
  let unconsumed ← if pool.chain.isEmpty then pure 0 else sub sizes.sum pool.consumed
  return { pool.occupancy with unconsumed }

variable {pool after : Pool} {retired fresh : Buffer} {carryFrom needed : Nat}
  {events : List Event}

theorem block_eq {blocks : Array Block} {slot : Nat} (h : slot < blocks.size) :
    block blocks slot = .ok (blocks[slot]?.getD {}) := by
  rw [block, Array.getElem?_eq_getElem h]
  rfl

theorem reclaimFromChecked_eq {blocks : Array Block} {chain : List Nat}
    (h : ∀ slot ∈ chain, slot < blocks.size) (consumed : Nat) :
    reclaimFromChecked blocks chain consumed = .ok (reclaimFrom blocks chain consumed) := by
  fun_induction reclaimFrom blocks chain consumed with
  | case1 => rfl
  | case2 blocks slot chain consumed size hlt =>
    rw [reclaimFromChecked, block_eq (h slot (List.mem_cons_self ..))]
    exact if_pos hlt
  | case3 blocks slot chain consumed size hge ih =>
    rw [reclaimFromChecked, block_eq (h slot (List.mem_cons_self ..))]
    refine (if_neg hge).trans ?_
    rw [Checked.sub_eq (Nat.le_of_not_lt hge)]
    apply ih
    intro other hother
    rw [Array.size_modify]
    exact h other (List.mem_cons_of_mem _ hother)

theorem WellFormed.reclaimChecked_eq (h : pool.WellFormed) :
    pool.reclaimChecked = .ok pool.reclaim :=
  reclaimFromChecked_eq (fun _ => h.lt_size) _

theorem WellFormed.consumeChecked_eq (h : pool.WellFormed) (n : Nat) :
    pool.consumeChecked n = .ok (pool.consume n) :=
  reclaimFromChecked_eq (fun _ => h.lt_size) _

theorem WellFormed.storeChecked_eq (h : pool.WellFormed) {slot : Nat}
    (hsize : slot < pool.blocks.size) (buffer : Buffer) :
    pool.storeChecked slot buffer = .ok (pool.store slot buffer) := by
  rw [storeChecked, block_eq hsize]
  cases hnewest : pool.newest? with
  | none => rfl
  | some newest =>
    have hmem : newest ∈ pool.chain := List.mem_of_getLast? hnewest
    change (block pool.blocks newest >>= fun _ => _) = _
    rw [block_eq (h.lt_size hmem)]
    rfl

theorem slice_carried (h : carryFrom ≤ retired.size) :
    slice retired.bytes carryFrom retired.size = .ok (retired.bytes.drop carryFrom) := by
  rw [Checked.slice_eq h (Nat.le_refl _), List.take_of_length_le]
  exact Nat.le_of_eq (List.length_drop ..)

theorem WellFormed.retireChecked_eq (h : pool.WellFormed) {slot : Nat}
    (hslot : slot ∉ pool.chain) (hsize : slot < pool.blocks.size)
    (hstart : carryFrom ≤ retired.size) (capacity : Nat) :
    pool.retireChecked slot retired carryFrom capacity =
      .ok (⟨retired.bytes.drop carryFrom, capacity⟩, pool.retire slot retired carryFrom) := by
  rw [retireChecked, slice_carried hstart]
  change (pool.storeChecked slot _ >>= fun stored => _) = _
  rw [h.storeChecked_eq hsize]
  change (reclaimChecked _ >>= fun _ => _) = _
  rw [(h.store hslot hsize).reclaimChecked_eq]
  rfl

/-- Where an exchange succeeds on a pool in order, no check stops it. -/
theorem Exchanged.exchangeChecked_eq
    (h : Exchanged pool retired carryFrom needed events fresh after) (hw : pool.WellFormed)
    (hstart : carryFrom ≤ retired.size) (hlength : retired.size - carryFrom ≤ needed)
    (hmax : needed ≤ maxCapacity) :
    pool.exchangeChecked retired carryFrom needed = .ok (fresh, after) := by
  rw [exchangeChecked, Checked.require_eq hstart, Checked.sub_eq hstart]
  change (require (retired.size - carryFrom ≤ needed) _ >>= fun _ => _) = _
  rw [Checked.require_eq hlength, Checked.require_eq hmax]
  cases h with
  | @claimed slot hslot =>
    have hstorage : pool.storageFor retired carryFrom needed = .block slot := by
      rw [storageFor, hslot]
    rw [hstorage]
    change (block pool.blocks slot >>= fun _ => _) = _
    rw [block_eq (reusable?_some hslot).1]
    exact hw.retireChecked_eq (hw.notMem_of_reusable? hslot) (reusable?_some hslot).1 hstart _
  | inPlace hnone hchain hconsumed hroom =>
    have hstorage : pool.storageFor retired carryFrom needed = .inPlace := by
      rw [storageFor, hnone]
      exact if_pos ⟨by simp [hchain], hconsumed, hroom⟩
    rw [hstorage]
    change (sub pool.consumed carryFrom >>= fun _ => _) = _
    rw [Checked.sub_eq hconsumed]
    change (slice retired.bytes carryFrom retired.size >>= fun _ => _) = _
    rw [slice_carried hstart]
    rfl
  | fresh hnone hplace =>
    have hstorage : pool.storageFor retired carryFrom needed = .fresh := by
      rw [storageFor, hnone]
      exact if_neg hplace
    rw [hstorage]
    exact hw.grown.retireChecked_eq hw.size_notMem_grown size_lt_grown hstart _

theorem sizes_checked {blocks : Array Block} {chain : List Nat}
    (h : ∀ slot ∈ chain, slot < blocks.size) :
    (chain.mapM fun slot => (·.buffer.size) <$> block blocks slot) =
      (.ok (chain.map fun slot => (blocks[slot]?.getD {}).buffer.size) : Checked (List Nat)) := by
  apply Checked.mapM_eq
  intro slot hslot
  rw [block_eq (h slot hslot)]
  rfl

/-- The bytes consumed are no more than the chain holds. -/
theorem Accounts.consumed_le {portions : List Bytes} {freed : Nat}
    (h : pool.Accounts portions freed) (hchain : pool.chain ≠ []) :
    pool.consumed ≤ (pool.chain.map fun slot => (pool.bufferAt slot).size).sum := by
  obtain ⟨slot, chain, hcons⟩ := List.exists_cons_of_ne_nil hchain
  rw [hcons, List.map_cons, List.sum_cons]
  exact Nat.le_trans (Nat.le_of_lt (h.consumed_lt hcons)) (Nat.le_add_right ..)

/-- Counting the bytes that were not consumed never fails. -/
theorem Accounts.occupancyChecked_eq {portions : List Bytes} {freed : Nat}
    (h : pool.Accounts portions freed) : pool.occupancyChecked = .ok pool.occupancy := by
  rw [occupancyChecked, sizes_checked fun _ => h.lt_size]
  by_cases hchain : pool.chain = []
  · simp [occupancy, hchain, bind, Except.bind, pure, Except.pure]
  · have hsub := Checked.sub_eq (h.consumed_le hchain)
    simp only [bufferAt] at hsub
    simp [occupancy, hchain, bufferAt, hsub, bind, Except.bind, pure, Except.pure]

end Pool
end StreamCursor
