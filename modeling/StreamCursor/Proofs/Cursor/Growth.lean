import StreamCursor.Proofs.Cursor.Carrying

/-! When a peek exchanges the buffer, and for which one. Main statements: a peek exchanges it once
where the byte is missing and would not fit, for one of a capacity that depends on nothing but the
capacity before and the distance looked ahead; every other peek leaves pool and capacity alone. -/

namespace StreamCursor
namespace Cursor

variable {σ : Type} [Source σ] {c later : Cursor σ} {k : Nat}

omit [Source σ] in
/-- The byte `k` positions after the cursor is missing, the stream has not ended, and the byte would
lie behind the buffer, though at an index that some buffer has. -/
structure Outgrows (c : Cursor σ) (k : Nat) : Prop where
  isOpen : c.ended = none
  missing : c.window.ahead.size ≤ k
  full : c.capacity ≤ c.window.position + k
  reach : c.window.position + k < maxCapacity

/-- What reads into the active buffer report. -/
theorem ToppedUp.journal (h : ToppedUp k c later) :
    ∃ events, later.journal = events ++ c.journal ∧ ∀ e ∈ events, e.isOfRead = true := by
  induction h with
  | done => exact ⟨[], rfl, nofun⟩
  | @more c later _ _ _ ih =>
    obtain ⟨newer, hnewer, hreads⟩ := ih
    obtain ⟨older, holder, hreads', -⟩ := (c.log [.toppingUp c.window.stop c.capacity]).read_journal
    refine ⟨newer ++ older ++ [.toppingUp c.window.stop c.capacity], ?_, ?_⟩
    · rw [hnewer, holder]
      simp [log]
    · intro e he
      simp only [List.mem_append, List.mem_singleton, or_assoc] at he
      rcases he with he | he | rfl
      · exact hreads e he
      · exact hreads' e he
      · rfl

namespace Peeked

theorem unmoved (hpeeked : Peeked k c later) (hfits : ¬c.Outgrows k) :
    later.pool = c.pool ∧ later.capacity = c.capacity ∧
      ∃ events, later.journal = events ++ c.journal ∧ ∀ e ∈ events, e.isOfRead = true := by
  cases hpeeked with
  | unchanged => exact ⟨rfl, rfl, [], rfl, nofun⟩
  | toppedUp _ _ _ htopped => exact ⟨htopped.pool_eq, htopped.capacity_eq, htopped.journal⟩
  | exchanged hopen hmissing hfull hreach => exact absurd ⟨hopen, hmissing, hfull, hreach⟩ hfits

theorem moved (hpeeked : Peeked k c later) (hgrows : c.Outgrows k) :
    ∃ events, Pool.Exchanged c.pool ⟨c.window.bytes, c.capacity⟩ c.window.start
        (nextCapacity c.capacity (c.window.mark + k)) events
        ⟨c.window.kept, nextCapacity c.capacity (c.window.mark + k)⟩ later.pool ∧
      later.capacity = nextCapacity c.capacity (c.window.mark + k) ∧
      ∃ reads growth, (∀ e ∈ reads, e.isOfRead = true) ∧
        (growth = [] ∨
          growth = [.growing c.capacity (nextCapacity c.capacity (c.window.mark + k))]) ∧
        later.journal = reads ++ (events.reverse ++
          .swapping c.tokenOffset (c.window.mark + c.window.ahead.size) ::
            (growth ++ c.journal)) := by
  obtain ⟨hopen, hmissing, hfull, hreach⟩ := hgrows
  cases hpeeked with
  | unchanged h =>
    rcases h with h | h | h
    · omega
    · omega
    · simp [isExhausted, hopen] at h
  | toppedUp _ _ hfits => omega
  | @exchanged pool events _ _ _ _ _ hexchange htopped =>
    obtain ⟨newer, hnewer, hreads⟩ := htopped.journal
    obtain ⟨older, holder, hreads', -⟩ :=
      (c.carriedOver (c.window.mark + k) pool events).read_journal
    obtain ⟨growth, hgrowth, hjournal⟩ := journal_carriedOver c (c.window.mark + k) pool events
    have hpool : later.pool = pool := htopped.pool_eq.trans (pool_read _)
    refine ⟨events, hpool ▸ hexchange, htopped.capacity_eq.trans (capacity_read _),
      newer ++ older, growth, ?_, hgrowth, ?_⟩
    · intro e he
      exact (List.mem_append.1 he).elim (hreads e) (hreads' e)
    · rw [hnewer, holder, hjournal, List.append_assoc]

/-- The buffer is exchanged once. It keeps its capacity as long as what is looked at lies in the
first half from the start of the token on, and it grows by just so much otherwise, whichever blocks
there are. -/
theorem growth (hpeeked : Peeked k c later) (h : c.Sound) (hgrows : c.Outgrows k) :
    (∃ events, later.journal = events ++ c.journal ∧ exchanges events = 1) ∧
      c.window.mark + k < later.capacity ∧
      (2 * (c.window.mark + k) ≤ c.capacity → later.capacity = c.capacity) ∧
      (c.capacity < 2 * (c.window.mark + k) →
        later.capacity = min (2 * c.capacity + (c.window.mark + k)) maxCapacity ∧
        c.capacity < later.capacity) := by
  obtain ⟨events, hexchange, hcapacity, reads, growth, hreads, hgrowth, hjournal⟩ :=
    hpeeked.moved hgrows
  obtain ⟨hopen, -, hfull, hreach⟩ := hgrows
  have hpos := h.capacity_pos hopen
  have hposition : c.window.position = c.window.start + c.window.mark := rfl
  rw [hcapacity]
  refine ⟨⟨reads ++ (events.reverse ++
    .swapping c.tokenOffset (c.window.mark + c.window.ahead.size) :: growth), ?_, ?_⟩, ?_, ?_, ?_⟩
  · rw [hjournal]
    simp
  · have hquiet : ∀ e ∈ reads, e.isExchange = false :=
      fun e he => (Event.isOfRead_quiet (hreads e he)).1
    have hpool : ∀ e ∈ events.reverse, e.isExchange = false :=
      fun e he => (Event.isOfPool_quiet (hexchange.isOfPool e (List.mem_reverse.1 he))).1
    have hnone : exchanges growth = 0 := by rcases hgrowth with rfl | rfl <;> rfl
    simp [exchanges_eq_zero hquiet, exchanges_eq_zero hpool, hnone, Event.isSwapping]
  · exact reach_lt_nextCapacity hpos (by omega)
  · exact fun hkeeps => nextCapacity_of_le hkeeps hpos
  · intro hlt
    exact ⟨if_pos hlt, lt_nextCapacity hlt (Nat.lt_of_le_of_lt hfull hreach)⟩

theorem no_growth (hpeeked : Peeked k c later) (hfits : ¬c.Outgrows k) :
    (∃ events, later.journal = events ++ c.journal ∧ exchanges events = 0) ∧
      later.capacity = c.capacity := by
  obtain ⟨-, hcapacity, events, hjournal, hreads⟩ := hpeeked.unmoved hfits
  have hquiet : ∀ e ∈ events, e.isExchange = false :=
    fun e he => (Event.isOfRead_quiet (hreads e he)).1
  exact ⟨⟨events, hjournal, exchanges_eq_zero hquiet⟩, hcapacity⟩

theorem le_capacity (hpeeked : Peeked k c later) (h : c.Sound) : c.capacity ≤ later.capacity := by
  by_cases hgrows : c.Outgrows k
  · obtain ⟨-, -, hkeeps, hlarger⟩ := hpeeked.growth h hgrows
    by_cases hhalf : 2 * (c.window.mark + k) ≤ c.capacity
    · exact Nat.le_of_eq (hkeeps hhalf).symm
    · exact Nat.le_of_lt (hlarger (Nat.lt_of_not_le hhalf)).2
  · exact Nat.le_of_eq (hpeeked.no_growth hgrows).2.symm

/-- Nothing but looking past half of the buffer makes it grow. -/
theorem capacity_eq (hpeeked : Peeked k c later) (h : c.Sound)
    (hhalf : 2 * (c.window.mark + k) ≤ c.capacity) : later.capacity = c.capacity := by
  by_cases hgrows : c.Outgrows k
  · exact (hpeeked.growth h hgrows).2.2.1 hhalf
  · exact (hpeeked.no_growth hgrows).2

end Peeked
end Cursor
end StreamCursor
