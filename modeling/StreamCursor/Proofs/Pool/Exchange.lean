import StreamCursor.Proofs.Pool.Chain

/-! What an exchange with a pool does, by the storage it finds. Main statements: an exchange
succeeds whenever the bytes to carry fit, and it then commits the others to the backlog. -/

namespace StreamCursor
namespace Pool

/-- The pool with one block more, which holds nothing. -/
def grown (pool : Pool) : Pool := { pool with blocks := pool.blocks.push {} }

/-- Every way in which an exchange succeeds, with what it reports, the buffer that comes back and
the pool it leaves. -/
inductive Exchanged (pool : Pool) (retired : Buffer) (carryFrom needed : Nat) :
    List Event → Buffer → Pool → Prop where
  | claimed {slot : Nat} (hslot : pool.reusable? needed = some slot) :
      Exchanged pool retired carryFrom needed
        [.claimed slot (pool.bufferAt slot).capacity needed]
        ⟨retired.bytes.drop carryFrom, (pool.bufferAt slot).capacity⟩
        (pool.retire slot retired carryFrom)
  | inPlace (hnone : pool.reusable? needed = none) (hchain : pool.chain = [])
      (hconsumed : carryFrom ≤ pool.consumed) (hroom : needed ≤ retired.capacity) :
      Exchanged pool retired carryFrom needed [.reusedInPlace]
        ⟨retired.bytes.drop carryFrom, retired.capacity⟩
        { pool with consumed := pool.consumed - carryFrom }
  | fresh (hnone : pool.reusable? needed = none)
      (hplace : ¬(pool.chain.isEmpty ∧ carryFrom ≤ pool.consumed ∧ needed ≤ retired.capacity))
      (hmax : needed ≤ maxCapacity) :
      Exchanged pool retired carryFrom needed [.allocated needed pool.blocks.size]
        ⟨retired.bytes.drop carryFrom, needed⟩
        (pool.grown.retire pool.blocks.size retired carryFrom)

variable {pool after : Pool} {retired fresh : Buffer} {carryFrom needed : Nat}
  {events : List Event}

/-- An exchange that is possible comes down to the storage found for it. -/
theorem exchange_eq (hstart : carryFrom ≤ retired.size)
    (hlength : (retired.bytes.drop carryFrom).length ≤ needed) :
    pool.exchange retired carryFrom needed =
      match pool.storageFor retired carryFrom needed with
      | .block slot =>
          ([.claimed slot (pool.bufferAt slot).capacity needed],
            .ok (⟨retired.bytes.drop carryFrom, (pool.bufferAt slot).capacity⟩,
              pool.retire slot retired carryFrom))
      | .inPlace =>
          ([.reusedInPlace],
            .ok (⟨retired.bytes.drop carryFrom, retired.capacity⟩,
              { pool with consumed := pool.consumed - carryFrom }))
      | .fresh =>
          ([.allocated needed pool.blocks.size],
            if maxCapacity < needed then .error .capacity
            else .ok (⟨retired.bytes.drop carryFrom, needed⟩,
              pool.grown.retire pool.blocks.size retired carryFrom)) := by
  unfold exchange
  rw [if_neg (Nat.not_lt.2 hstart)]
  exact if_neg (Nat.not_lt.2 hlength)

theorem bounds_of_exchange
    (h : pool.exchange retired carryFrom needed = (events, .ok (fresh, after))) :
    carryFrom ≤ retired.size ∧ (retired.bytes.drop carryFrom).length ≤ needed := by
  unfold exchange at h
  by_cases hstart : retired.size < carryFrom
  · simp [hstart] at h
  · by_cases hlength : needed < (retired.bytes.drop carryFrom).length
    · simp only [if_neg hstart, if_pos hlength, Prod.mk.injEq, reduceCtorEq, and_false] at h
    · exact ⟨Nat.le_of_not_lt hstart, Nat.le_of_not_lt hlength⟩

theorem exchanged_of_exchange
    (h : pool.exchange retired carryFrom needed = (events, .ok (fresh, after))) :
    Exchanged pool retired carryFrom needed events fresh after := by
  obtain ⟨hstart, hlength⟩ := bounds_of_exchange h
  rw [exchange_eq hstart hlength, storageFor] at h
  cases hreuse : pool.reusable? needed with
  | some slot =>
    rw [hreuse] at h
    cases h
    exact .claimed hreuse
  | none =>
    rw [hreuse] at h
    by_cases hplace : pool.chain.isEmpty ∧ carryFrom ≤ pool.consumed ∧ needed ≤ retired.capacity
    · simp only [if_pos hplace] at h
      cases h
      exact .inPlace hreuse (List.isEmpty_iff.1 hplace.1) hplace.2.1 hplace.2.2
    · simp only [if_neg hplace] at h
      by_cases hmax : maxCapacity < needed
      · simp only [if_pos hmax, Prod.mk.injEq, reduceCtorEq, and_false] at h
      · simp only [if_neg hmax] at h
        cases h
        exact .fresh hreuse hplace (Nat.le_of_not_lt hmax)

/-- No exchange fails whose bytes to carry fit into a buffer that can be had. -/
theorem exchange_succeeds (hstart : carryFrom ≤ retired.size)
    (hlength : (retired.bytes.drop carryFrom).length ≤ needed) (hmax : needed ≤ maxCapacity) :
    ∃ events fresh after,
      pool.exchange retired carryFrom needed = (events, .ok (fresh, after)) := by
  rw [exchange_eq hstart hlength]
  cases pool.storageFor retired carryFrom needed with
  | block slot => exact ⟨_, _, _, rfl⟩
  | inPlace => exact ⟨_, _, _, rfl⟩
  | fresh =>
    simp only [if_neg (Nat.not_lt.2 hmax)]
    exact ⟨_, _, _, rfl⟩

theorem reusable?_some {slot : Nat} (h : pool.reusable? needed = some slot) :
    slot < pool.blocks.size ∧ activeAt pool.blocks slot = false ∧
      needed ≤ (pool.bufferAt slot).capacity := by
  obtain ⟨hlt, hfits, -⟩ := List.findIdx?_eq_some_iff_getElem.1 h
  rw [Array.length_toList] at hlt
  simp only [Array.getElem_toList, Bool.and_eq_true, Bool.not_eq_true', decide_eq_true_eq] at hfits
  refine ⟨hlt, ?_, ?_⟩
  · simpa [activeAt, hlt] using hfits.1
  · simpa [bufferAt, hlt] using hfits.2

theorem WellFormed.notMem_of_reusable? (h : pool.WellFormed) {slot : Nat}
    (hslot : pool.reusable? needed = some slot) : slot ∉ pool.chain := by
  obtain ⟨-, hidle, -⟩ := reusable?_some hslot
  rw [h.mem_chain_iff, hidle]
  exact Bool.false_ne_true

/-- A block that is added empty changes nothing that the chain shows. -/
theorem WellFormed.grown (h : pool.WellFormed) : pool.grown.WellFormed := by
  constructor
  · exact h.nodup
  · intro slot
    rw [Pool.grown, activeAt_push, ← h.mem_chain_iff]

theorem WellFormed.size_notMem_grown (h : pool.WellFormed) :
    pool.blocks.size ∉ pool.grown.chain :=
  fun hmem => Nat.lt_irrefl _ (h.lt_size hmem)

theorem size_lt_grown : pool.blocks.size < pool.grown.blocks.size := by
  simp [grown]

theorem WellFormed.segments_grown (h : pool.WellFormed) : pool.grown.segments = pool.segments := by
  apply List.map_congr_left
  intro slot hslot
  have hne : slot ≠ pool.blocks.size := Nat.ne_of_lt (h.lt_size hslot)
  simp [bufferAt, Pool.grown, Array.getElem?_push, hne]

theorem Exchanged.wellFormed (h : Exchanged pool retired carryFrom needed events fresh after)
    (hw : pool.WellFormed) : after.WellFormed := by
  cases h with
  | claimed hslot =>
    exact hw.retire (hw.notMem_of_reusable? hslot) (reusable?_some hslot).1 _
  | inPlace => exact ⟨hw.nodup, hw.mem_chain_iff⟩
  | fresh => exact hw.grown.retire hw.size_notMem_grown size_lt_grown _

/-- Whatever storage is found, the bytes before `carryFrom` go behind the backlog. In place, they
were all consumed in advance, so that settling drops them at once. -/
theorem Exchanged.backlog_eq (h : Exchanged pool retired carryFrom needed events fresh after)
    (hw : pool.WellFormed) (hstart : carryFrom ≤ retired.size) :
    after.backlog =
      Backlog.settle (pool.segments ++ segmentOf (retired.bytes.take carryFrom))
        pool.consumed := by
  cases h with
  | claimed hslot => exact backlog_retire (hw.notMem_of_reusable? hslot) (reusable?_some hslot).1 _
  | inPlace _ hchain hconsumed =>
    have hsize : (segmentOf (retired.bytes.take carryFrom)).flatten.length = carryFrom := by
      rw [flatten_segmentOf]
      exact List.length_take_of_le hstart
    have hnil : pool.segments = [] := by rw [segments, hchain, List.map_nil]
    rw [hnil, List.nil_append, Backlog.settle_of_length_le (by omega), hsize]
    simp [backlog, segments, hchain]
  | fresh =>
    rw [backlog_retire hw.size_notMem_grown size_lt_grown, hw.segments_grown]
    rfl

theorem Exchanged.bytes_eq (h : Exchanged pool retired carryFrom needed events fresh after) :
    fresh.bytes = retired.bytes.drop carryFrom := by
  cases h <;> rfl

theorem Exchanged.needed_le (h : Exchanged pool retired carryFrom needed events fresh after) :
    needed ≤ fresh.capacity := by
  cases h with
  | claimed hslot => exact (reusable?_some hslot).2.2
  | inPlace _ _ _ hroom => exact hroom
  | fresh => exact Nat.le_refl _

end Pool
end StreamCursor
