import StreamCursor.Proofs.Cursor.Growth
import StreamCursor.Proofs.Pool.Storage

/-! What an exchange comes to where all that was committed is consumed. Main statement: the buffer
serves again as it is, or it is left behind for a larger one, so that the pool is idle and has no
blocks but those outgrown, which are small beside the buffer in use. -/

namespace StreamCursor

namespace Pool

variable {pool after : Pool} {portions : List Bytes} {freed carryFrom needed : Nat}
  {retired fresh : Buffer} {events : List Event}

/-- No block is large enough, and nothing keeps the retired buffer from serving again but its
capacity. -/
theorem Exchanged.recycles (he : Exchanged pool retired carryFrom needed events fresh after)
    (h : pool.Accounts portions freed) (hstart : carryFrom ≤ retired.size)
    (hfreed : freed = portions.flatten.length + carryFrom)
    (hsmaller : ∀ capacity ∈ pool.capacities, capacity < needed) :
    after.chain = [] ∧
      (needed ≤ retired.capacity → events = [.reusedInPlace] ∧ after.blocks = pool.blocks) ∧
      (retired.capacity < needed → after.capacities = pool.capacities ++ [retired.capacity]) := by
  obtain ⟨hchain, hconsumed⟩ := h.idle (by omega)
  have hlength : (portions ++ [retired.bytes.take carryFrom]).flatten.length = freed := by
    have hkept : (retired.bytes.take carryFrom).length = carryFrom := List.length_take_of_le hstart
    simp only [List.flatten_append, List.flatten_singleton, List.length_append, hkept, hfreed]
  have hidle := ((h.exchanged he hstart).idle (Nat.le_of_eq hlength)).1
  cases he with
  | claimed hslot =>
    obtain ⟨hlt, -, hfits⟩ := reusable?_some hslot
    have hmem := List.mem_of_getElem? (capacities_getElem? pool hlt)
    exact absurd (hsmaller _ hmem) (Nat.not_lt.2 hfits)
  | inPlace _ _ _ hroom =>
    exact ⟨hidle, fun _ => ⟨rfl, rfl⟩, fun hlt => absurd hroom (Nat.not_le.2 hlt)⟩
  | fresh _ hplace =>
    refine ⟨hidle, fun hroom => absurd ⟨by simp [hchain], by omega, hroom⟩ hplace, fun _ => ?_⟩
    exact capacities_grown_retire ..

end Pool

namespace Cursor

variable {σ : Type} {c later : Cursor σ} {k : Nat}

/-- The buffer was exchanged between the two moments. -/
def Swapped (c later : Cursor σ) : Prop := exchanges c.journal < exchanges later.journal

/-- The pool is idle. Each of its blocks is smaller than the buffer in use, and unless that is the
greatest there is, all blocks together come to two thirds of it at most. -/
structure Tidy (c : Cursor σ) : Prop where
  chain_eq : c.pool.chain = []
  smaller : ∀ capacity ∈ c.pool.capacities, capacity < c.capacity
  retained_le : c.capacity < maxCapacity → 3 * c.pool.occupancy.retained ≤ 2 * c.capacity

/-- The buffer was exchanged without need of the pool. Either it serves again, or it is the one
block that the pool has gained. -/
structure Recycled (c later : Cursor σ) : Prop where
  inFlight_eq : later.pool.occupancy.inFlight = 0
  reused : ¬c.capacity < later.capacity → later.pool.blocks = c.pool.blocks ∧
    ∃ events, later.journal = events ++ c.journal ∧ .reusedInPlace ∈ events
  outgrown : c.capacity < later.capacity → later.pool.blocks.size = c.pool.blocks.size + 1

theorem Tidy.inFlight_eq (h : c.Tidy) : c.pool.occupancy.inFlight = 0 := by
  simp [Pool.occupancy, h.chain_eq]

/-- Nothing but the chain and the capacities matters. -/
theorem Tidy.congr {d : Cursor σ} (h : c.Tidy) (hchain : d.pool.chain = c.pool.chain)
    (hcapacities : d.pool.capacities = c.pool.capacities) (hcapacity : d.capacity = c.capacity) :
    d.Tidy := by
  have hretained : d.pool.occupancy.retained = c.pool.occupancy.retained :=
    congrArg List.sum hcapacities
  constructor
  · rw [hchain, h.chain_eq]
  · rw [hcapacities, hcapacity]
    exact h.smaller
  · rw [hretained, hcapacity]
    exact h.retained_le

theorem Tidy.consume (h : c.Tidy) (n : Nat) : (c.consume n).Tidy := by
  refine h.congr ?_ (Pool.capacities_consume c.pool n) rfl
  simp [Cursor.consume, Pool.consume, Pool.reclaim, h.chain_eq, Pool.reclaimFrom]

namespace Peeked

variable [Source σ] {feed : Feed σ} {stream : Bytes} {freed : Nat}

theorem exchanges_le (hpeeked : Peeked k c later) (h : c.Sound) :
    exchanges c.journal ≤ exchanges later.journal := by
  by_cases hgrows : c.Outgrows k
  · obtain ⟨⟨events, hjournal, hone⟩, -⟩ := hpeeked.growth h hgrows
    simp [hjournal, hone]
  · obtain ⟨⟨events, hjournal, hnone⟩, -⟩ := hpeeked.no_growth hgrows
    simp [hjournal, hnone]

theorem swapped_iff (hpeeked : Peeked k c later) (h : c.Sound) :
    c.Swapped later ↔ c.Outgrows k := by
  unfold Swapped
  by_cases hgrows : c.Outgrows k
  · obtain ⟨⟨events, hjournal, hone⟩, -⟩ := hpeeked.growth h hgrows
    simp [hjournal, hone, hgrows]
  · obtain ⟨⟨events, hjournal, hnone⟩, -⟩ := hpeeked.no_growth hgrows
    simp [hjournal, hnone, hgrows]

/-- A peek that leaves the buffer in its place leaves the blocks in theirs. -/
theorem tidy_of_not_outgrows (hpeeked : Peeked k c later) (h : c.Tidy) (hfits : ¬c.Outgrows k) :
    later.Tidy ∧ later.pool.blocks = c.pool.blocks ∧ later.capacity = c.capacity := by
  obtain ⟨hpool, hcapacity, -⟩ := hpeeked.unmoved hfits
  exact ⟨h.congr (by rw [hpool]) (by rw [hpool]) hcapacity, by rw [hpool], hcapacity⟩

theorem recycles (hpeeked : Peeked k c later) (hc : c.Faithful feed stream freed) (h : c.Tidy)
    (hgrows : c.Outgrows k) (hfreed : freed = c.tokenOffset) :
    later.Tidy ∧ c.Recycled later := by
  obtain ⟨portions, hportions, haccounts⟩ := hc.accounts
  obtain ⟨-, -, hkeeps, hgrown⟩ := hpeeked.growth hc.toSound hgrows
  obtain ⟨events, hexchange, hcapacity, reads, growth, -, -, hjournal⟩ := hpeeked.moved hgrows
  obtain ⟨hopen, -, hfull, hreach⟩ := hgrows
  have hretired : (⟨c.window.bytes, c.capacity⟩ : Buffer).size = c.window.stop :=
    Window.length_bytes _
  have hcommitted : portions.flatten.length = c.base := by
    rw [hportions, List.length_take_of_le hc.base_le]
  have hle : c.capacity ≤ later.capacity := hpeeked.le_capacity hc.toSound
  rw [← hcapacity] at hexchange
  obtain ⟨hidle, hreused, houtgrown⟩ := hexchange.recycles haccounts
    (by rw [hretired]; exact c.window.start_le_stop) (by rw [hcommitted, hfreed]; rfl)
    fun capacity hmem => Nat.lt_of_lt_of_le (h.smaller capacity hmem) hle
  have hinFlight : later.pool.occupancy.inFlight = 0 := by simp [Pool.occupancy, hidle]
  by_cases hlarger : c.capacity < later.capacity
  · have hadded : later.pool.capacities = c.pool.capacities ++ [c.capacity] := houtgrown hlarger
    have hsize : later.pool.blocks.size = c.pool.blocks.size + 1 := by
      simpa [Pool.capacities] using congrArg List.length hadded
    have hretained : later.pool.occupancy.retained = c.pool.occupancy.retained + c.capacity := by
      have hsum := congrArg List.sum hadded
      rwa [List.sum_append, List.sum_singleton] at hsum
    refine ⟨⟨hidle, ?_, fun hmax => ?_⟩, hinFlight, fun hnot => absurd hlarger hnot, fun _ => hsize⟩
    · simp only [hadded, List.forall_mem_append, List.forall_mem_singleton]
      exact ⟨fun capacity hmem => Nat.lt_trans (h.smaller capacity hmem) hlarger, hlarger⟩
    · -- The new capacity is more than two and a half times the old one.
      have hhalf : c.capacity < 2 * (c.window.mark + k) := by
        by_contra hnot
        have := hkeeps (Nat.le_of_not_lt hnot)
        omega
      have hnext := (hgrown hhalf).1
      have hbefore := h.retained_le (by omega)
      omega
  · have hsame : later.capacity = c.capacity := by omega
    obtain ⟨rfl, hblocks⟩ := hreused (Nat.le_of_eq hsame)
    refine ⟨h.congr (hidle.trans h.chain_eq.symm) (by simp only [Pool.capacities, hblocks]) hsame,
      hinFlight, fun _ => ⟨hblocks, ?_⟩, fun hlt => absurd hlt hlarger⟩
    refine ⟨reads ++ (.reusedInPlace ::
      .swapping c.tokenOffset (c.window.mark + c.window.ahead.size) :: growth), ?_, by simp⟩
    rw [hjournal]
    simp

end Peeked
end Cursor
end StreamCursor
