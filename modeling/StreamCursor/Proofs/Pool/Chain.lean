import StreamCursor.Pool
import StreamCursor.Proofs.Backlog

/-! The chain of a pool as a backlog of segments. Main statements: whatever storage an exchange
finds, it adds the committed bytes behind the backlog and settles it, and so does consuming. -/

namespace StreamCursor
namespace Pool

/-- The bytes of each block on the chain, the oldest first. -/
def segments (pool : Pool) : List Bytes := pool.chain.map fun slot => (pool.bufferAt slot).bytes

def backlog (pool : Pool) : Backlog := ⟨pool.segments, pool.consumed⟩

def activeAt (blocks : Array Block) (slot : Nat) : Bool := (blocks[slot]?.getD {}).active

/-- The chain visits every active block once, and no other block. -/
structure WellFormed (pool : Pool) : Prop where
  nodup : pool.chain.Nodup
  mem_chain_iff : ∀ slot, slot ∈ pool.chain ↔ activeAt pool.blocks slot = true

theorem wellFormed_empty : WellFormed {} :=
  ⟨List.nodup_nil, fun slot => by simp [activeAt]⟩

theorem WellFormed.lt_size {pool : Pool} (h : pool.WellFormed) {slot : Nat}
    (hslot : slot ∈ pool.chain) : slot < pool.blocks.size := by
  have ha := (h.mem_chain_iff slot).1 hslot
  rcases Nat.lt_or_ge slot pool.blocks.size with hlt | hge
  · exact hlt
  · simp [activeAt, Array.getElem?_eq_none hge] at ha

theorem activeAt_deactivate (blocks : Array Block) (slot other : Nat) :
    activeAt (blocks.modify slot ({ · with active := false })) other =
      (activeAt blocks other && slot != other) := by
  unfold activeAt
  rw [Array.getElem?_modify]
  by_cases h : slot = other
  · cases blocks[other]? <;> simp [h]
  · simp [h]

theorem activeAt_set {blocks : Array Block} {slot : Nat} (hslot : slot < blocks.size)
    (block : Block) (other : Nat) :
    activeAt (blocks.setIfInBounds slot block) other =
      if slot = other then block.active else activeAt blocks other := by
  unfold activeAt
  by_cases h : slot = other
  · subst h
    simp [hslot]
  · simp [h]

theorem activeAt_push (blocks : Array Block) (other : Nat) :
    activeAt (blocks.push {}) other = activeAt blocks other := by
  unfold activeAt
  rw [Array.getElem?_push]
  by_cases h : other = blocks.size
  · subst h
    simp
  · simp [h]

/-- Reclaiming shortens the chain from its front and deactivates what leaves it. -/
theorem WellFormed.reclaimFrom {blocks : Array Block} {chain : List Nat} (hnodup : chain.Nodup)
    (hmem : ∀ slot, slot ∈ chain ↔ activeAt blocks slot = true) (consumed : Nat) :
    (reclaimFrom blocks chain consumed).WellFormed := by
  fun_induction Pool.reclaimFrom blocks chain consumed with
  | case1 | case2 => exact ⟨hnodup, hmem⟩
  | case3 blocks slot chain consumed size h ih =>
    obtain ⟨hslot, hchain⟩ := List.nodup_cons.1 hnodup
    apply ih hchain
    intro other
    rw [activeAt_deactivate, Bool.and_eq_true, ← hmem, List.mem_cons, bne_iff_ne]
    constructor
    · intro ho
      exact ⟨.inr ho, fun he => hslot (he ▸ ho)⟩
    · rintro ⟨rfl | ho, hne⟩
      · exact absurd rfl hne
      · exact ho

theorem WellFormed.reclaim {pool : Pool} (h : pool.WellFormed) : pool.reclaim.WellFormed :=
  WellFormed.reclaimFrom h.nodup h.mem_chain_iff _

theorem WellFormed.consume {pool : Pool} (h : pool.WellFormed) (n : Nat) :
    (pool.consume n).WellFormed :=
  WellFormed.reclaimFrom h.nodup h.mem_chain_iff _

private theorem buffer_modify (blocks : Array Block) (slot other : Nat) :
    ((blocks.modify slot ({ · with active := false }))[other]?.getD {}).buffer =
      (blocks[other]?.getD {}).buffer := by
  rw [Array.getElem?_modify]
  split
  · cases blocks[other]? <;> rfl
  · rfl

theorem backlog_reclaimFrom (blocks : Array Block) (chain : List Nat) (consumed : Nat) :
    (reclaimFrom blocks chain consumed).backlog =
      Backlog.settle (chain.map fun slot => (blocks[slot]?.getD {}).buffer.bytes) consumed := by
  fun_induction Pool.reclaimFrom blocks chain consumed with
  | case1 => rfl
  | case2 blocks slot chain consumed size h =>
    have hlt : consumed < (blocks[slot]?.getD {}).buffer.bytes.length := h
    rw [List.map_cons, Backlog.settle, if_pos hlt]
    rfl
  | case3 blocks slot chain consumed size h ih =>
    have hge : ¬consumed < (blocks[slot]?.getD {}).buffer.bytes.length := h
    rw [List.map_cons, Backlog.settle, if_neg hge, ih]
    simp only [buffer_modify]
    rfl

theorem backlog_reclaim (pool : Pool) :
    pool.reclaim.backlog = Backlog.settle pool.segments pool.consumed :=
  backlog_reclaimFrom ..

theorem backlog_consume (pool : Pool) (n : Nat) :
    (pool.consume n).backlog = Backlog.settle pool.segments (pool.consumed + n) :=
  backlog_reclaimFrom ..

/-- What is stored of committed bytes: nothing has no segment. -/
def segmentOf (bytes : Bytes) : List Bytes := if bytes = [] then [] else [bytes]

@[simp] theorem flatten_segmentOf (bytes : Bytes) : (segmentOf bytes).flatten = bytes := by
  unfold segmentOf
  split
  next h => rw [h, List.flatten_nil]
  · rw [List.flatten_singleton]

theorem filter_append_segmentOf (portions : List Bytes) (bytes : Bytes) :
    (portions ++ [bytes]).filter (· ≠ []) = portions.filter (· ≠ []) ++ segmentOf bytes := by
  by_cases h : bytes = [] <;> simp [segmentOf, h]

section Store

variable {pool : Pool} {slot : Nat} {buffer : Buffer}

theorem bufferAt_store_ne {other : Nat} (h : slot ≠ other) :
    (pool.store slot buffer).bufferAt other = pool.bufferAt other := by
  simp [bufferAt, store, h]

theorem bufferAt_store_self (h : slot < pool.blocks.size) :
    (pool.store slot buffer).bufferAt slot = buffer := by
  simp [bufferAt, store, h]

theorem segments_store (hslot : slot ∉ pool.chain) (hsize : slot < pool.blocks.size) :
    (pool.store slot buffer).segments = pool.segments ++ segmentOf buffer.bytes := by
  have hold : (pool.chain.map fun other => ((pool.store slot buffer).bufferAt other).bytes) =
      pool.segments := by
    apply List.map_congr_left
    intro other hother
    rw [bufferAt_store_ne]
    rintro rfl
    exact hslot hother
  by_cases hb : buffer.bytes = []
  · have hchain : (pool.store slot buffer).chain = pool.chain := by simp [store, hb]
    rw [segments, hchain, hold, segmentOf, if_pos hb, List.append_nil]
  · have hchain : (pool.store slot buffer).chain = pool.chain ++ [slot] := by simp [store, hb]
    rw [segments, hchain, List.map_append, hold, List.map_singleton, bufferAt_store_self hsize,
      segmentOf, if_neg hb]

/-- Only a block that is not in use may take a buffer. -/
theorem WellFormed.store (h : pool.WellFormed) (hslot : slot ∉ pool.chain)
    (hsize : slot < pool.blocks.size) : (pool.store slot buffer).WellFormed := by
  by_cases hb : buffer.bytes = []
  · have hchain : (pool.store slot buffer).chain = pool.chain := by simp [Pool.store, hb]
    constructor
    · rw [hchain]
      exact h.nodup
    · intro other
      rw [hchain, Pool.store, activeAt_set hsize]
      by_cases ho : slot = other
      · subst ho
        simp [hb, hslot]
      · rw [if_neg ho, h.mem_chain_iff]
  · have hchain : (pool.store slot buffer).chain = pool.chain ++ [slot] := by
      simp [Pool.store, hb]
    constructor
    · rw [hchain, List.nodup_append]
      refine ⟨h.nodup, by simp, ?_⟩
      rintro a ha b hb rfl
      exact hslot (List.mem_singleton.1 hb ▸ ha)
    · intro other
      rw [hchain, Pool.store, activeAt_set hsize, List.mem_append, List.mem_singleton]
      by_cases ho : slot = other
      · subst ho
        simp [hb]
      · rw [if_neg ho, h.mem_chain_iff]
        simp [Ne.symm ho]

theorem WellFormed.retire (h : pool.WellFormed) (hslot : slot ∉ pool.chain)
    (hsize : slot < pool.blocks.size) (carryFrom : Nat) :
    (pool.retire slot buffer carryFrom).WellFormed :=
  (h.store hslot hsize).reclaim

theorem backlog_retire (hslot : slot ∉ pool.chain) (hsize : slot < pool.blocks.size)
    (carryFrom : Nat) :
    (pool.retire slot buffer carryFrom).backlog =
      Backlog.settle (pool.segments ++ segmentOf (buffer.bytes.take carryFrom)) pool.consumed := by
  rw [retire, backlog_reclaim, segments_store hslot hsize]
  rfl

end Store

end Pool
end StreamCursor
