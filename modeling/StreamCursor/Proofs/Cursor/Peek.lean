import StreamCursor.Proofs.Cursor.Faithful

/-! Everything that a peek can do to a cursor. Main statement: a peek leaves the cursor alone, or it
reads into the active buffer, which it may have exchanged once before, until the byte has arrived or
the stream has ended. -/

namespace StreamCursor

theorem Reply.delivered_of_ending {reply : Reply} {slot : Slot}
    (h : (reply.ending slot).isSome) : reply.delivered slot = [] := by
  unfold ending at h
  unfold delivered at h ⊢
  cases houtcome : reply.outcome with
  | error cause => rfl
  | ok count =>
    simp only [houtcome] at h ⊢
    split at h
    next hempty => exact List.isEmpty_iff.1 hempty
    · cases h

namespace Cursor

variable {σ : Type} [Source σ] {c later : Cursor σ} {k refills : Nat}

/-- What reads into the active buffer make of a cursor while the byte `k` positions after it is
missing and the stream has not ended. -/
inductive ToppedUp (k : Nat) : Cursor σ → Cursor σ → Prop where
  | done (c : Cursor σ) : ToppedUp k c c
  | more {c later : Cursor σ} (hopen : c.ended = none) (hmissing : c.window.ahead.size ≤ k)
      (h : ToppedUp k (c.log [.toppingUp c.window.stop c.capacity]).read later) :
      ToppedUp k c later

/-- A read that ends the stream brings nothing. -/
theorem arriving_of_exhausted (hopen : c.ended = none) (h : c.read.isExhausted) :
    c.arriving = [] := by
  rw [isExhausted, ended_read hopen] at h
  exact Reply.delivered_of_ending h

namespace ToppedUp

theorem pool_eq (h : ToppedUp k c later) : later.pool = c.pool := by
  induction h with
  | done => rfl
  | more _ _ _ ih => exact ih.trans (pool_read _)

theorem capacity_eq (h : ToppedUp k c later) : later.capacity = c.capacity := by
  induction h with
  | done => rfl
  | more _ _ _ ih => exact ih.trans (capacity_read _)

theorem samePlace (h : ToppedUp k c later) : c.SamePlace later := by
  induction h with
  | done => exact .refl _
  | @more c _ _ _ _ ih =>
    have hread := Faithful.samePlace_read (c.log [.toppingUp c.window.stop c.capacity])
    exact SamePlace.trans ⟨hread.tokenOffset, hread.mark, hread.pending, hread.position_le⟩ ih

theorem sound (h : ToppedUp k c later) (hc : c.Sound) : later.Sound := by
  induction h with
  | done => exact hc
  | more hopen _ _ ih =>
    exact ih (Sound.read ⟨hc.room, hc.capacity_pos, hc.capacity_le, hc.blocks_le⟩ hopen)

theorem eq_of_exhausted (h : ToppedUp k c later) (hended : c.isExhausted) : later = c := by
  cases h with
  | done => rfl
  | more hopen =>
    rw [isExhausted, hopen] at hended
    cases hended

/-- If the stream ends here, it ends before the byte that was missing. -/
theorem size_ahead_le (h : ToppedUp k c later) (hopen : c.ended = none)
    (hended : later.isExhausted) : later.window.ahead.size ≤ k := by
  induction h with
  | done c =>
    rw [isExhausted, hopen] at hended
    cases hended
  | @more c later _ hmissing hrest ih =>
    by_cases hnext : (c.log [.toppingUp c.window.stop c.capacity]).read.isExhausted
    · have hnone := arriving_of_exhausted (c := c.log _) hopen hnext
      rw [hrest.eq_of_exhausted hnext, window_read, hnone, Window.size_ahead_extend]
      exact hmissing
    · exact ih (by simpa [isExhausted] using hnext) hended

end ToppedUp

/-- A read brings a byte, which leaves fewer missing, or it ends the stream. -/
theorem exhausted_or_lt_of_read (hopen : c.ended = none)
    (hbound : k < c.window.ahead.size + (refills + 1)) :
    c.read.isExhausted ∨ k < c.read.window.ahead.size + refills := by
  by_cases hnone : c.arriving = []
  · left
    rw [isExhausted, ended_read hopen]
    exact Reply.ending_of_delivered_nil hnone
  · right
    have hpos := List.length_pos_iff.2 hnone
    rw [window_read, Window.size_ahead_extend]
    omega

/-- Where the byte fits into the active buffer, reads bring it or the end. The missing bytes bound
the number of reads. -/
theorem fill_toppedUp (hfits : c.window.position + k < c.capacity)
    (hbound : c.isExhausted ∨ k < c.window.ahead.size + refills) :
    ∃ later, c.fill k refills = .ok later ∧ ToppedUp k c later ∧
      (later.isExhausted ∨ k < later.window.ahead.size) := by
  induction refills generalizing c with
  | zero => exact ⟨c, rfl, .done c, hbound⟩
  | succ refills ih =>
    by_cases hdone : c.isExhausted ∨ k < c.window.ahead.size
    · exact ⟨c, Faithful.fill_of_done hdone, .done c, hdone⟩
    · obtain ⟨hexhausted, hmissing⟩ := not_or.1 hdone
      have hopen : c.ended = none := by simpa [isExhausted] using hexhausted
      have hrefill : c.refill k = .ok (c.log [.toppingUp c.window.stop c.capacity]).read :=
        if_pos hfits
      have hnext := exhausted_or_lt_of_read (c := c.log [.toppingUp c.window.stop c.capacity])
        hopen (hbound.resolve_left hexhausted)
      obtain ⟨later, hfill, htopped, hstop⟩ := ih (by simpa only [window_read, capacity_read]) hnext
      refine ⟨later, ?_, .more hopen (Nat.le_of_not_lt hmissing) htopped, hstop⟩
      rw [Faithful.fill_succ hdone hrefill, hfill]

/-- Everything that a peek can do. -/
inductive Peeked (k : Nat) (c : Cursor σ) : Cursor σ → Prop where
  /-- The byte has arrived already, or it cannot. -/
  | unchanged (h : k < c.window.ahead.size ∨ maxCapacity ≤ c.window.position + k ∨
      c.isExhausted) : Peeked k c c
  | toppedUp {later : Cursor σ} (hopen : c.ended = none) (hmissing : c.window.ahead.size ≤ k)
      (hfits : c.window.position + k < c.capacity) (htopped : ToppedUp k c later)
      (hdone : later.isExhausted ∨ k < later.window.ahead.size) : Peeked k c later
  | exchanged {pool : Pool} {events : List Event} {later : Cursor σ} (hopen : c.ended = none)
      (hmissing : c.window.ahead.size ≤ k) (hfull : c.capacity ≤ c.window.position + k)
      (hreach : c.window.position + k < maxCapacity)
      (hexchange : Pool.Exchanged c.pool ⟨c.window.bytes, c.capacity⟩ c.window.start
        (nextCapacity c.capacity (c.window.mark + k)) events
        ⟨c.window.kept, nextCapacity c.capacity (c.window.mark + k)⟩ pool)
      (htopped : ToppedUp k (c.carriedOver (c.window.mark + k) pool events).read later)
      (hdone : later.isExhausted ∨ k < later.window.ahead.size) : Peeked k c later

omit [Source σ] in
theorem position_carriedOver (c : Cursor σ) (reach : Nat) (pool : Pool) (events : List Event) :
    (c.carriedOver reach pool events).window.position = c.window.mark := by
  have hmark := (Faithful.samePlace_carriedOver c reach pool events).mark
  have hstart : (c.carriedOver reach pool events).window.start = 0 := rfl
  rw [Window.position, hmark, hstart, Nat.zero_add]

omit [Source σ] in
theorem size_ahead_carriedOver (c : Cursor σ) (reach : Nat) (pool : Pool) (events : List Event) :
    (c.carriedOver reach pool events).window.ahead.size = c.window.ahead.size := by
  change (c.window.kept.drop c.window.mark).length = c.window.ahead.size
  rw [List.length_drop, Window.length_kept, Nat.add_sub_cancel_left]

/-- Where the byte does not fit into the active buffer, it fits into the one exchanged for it. -/
theorem Sound.fill_exchanged (h : c.Sound) (hopen : c.ended = none)
    (hmissing : c.window.ahead.size ≤ k) (hfull : c.capacity ≤ c.window.position + k)
    (hreach : c.window.position + k < maxCapacity)
    (hbound : k < c.window.ahead.size + (refills + 1)) :
    ∃ later, c.fill k (refills + 1) = .ok later ∧ Peeked k c later := by
  have hposition : c.window.position = c.window.start + c.window.mark := rfl
  have hmark : c.window.mark + k < maxCapacity := by omega
  obtain ⟨events, pool, hexchange, hcarried⟩ := h.exchange_eq hopen hmark
  have hrefill : c.refill k = .ok (c.carriedOver (c.window.mark + k) pool events).read := by
    rw [refill, if_neg (Nat.not_lt.2 hfull), hcarried]
    rfl
  have hdone : ¬(c.isExhausted ∨ k < c.window.ahead.size) := by
    simp [isExhausted, hopen, hmissing]
  have hfits : c.window.mark + k < nextCapacity c.capacity (c.window.mark + k) :=
    reach_lt_nextCapacity (h.capacity_pos hopen) hmark
  have hroom : (c.carriedOver (c.window.mark + k) pool events).read.window.position + k <
      (c.carriedOver (c.window.mark + k) pool events).read.capacity := by
    rw [window_read, capacity_read, Window.position_extend, position_carriedOver]
    exact hfits
  have hmore : k < (c.carriedOver (c.window.mark + k) pool events).window.ahead.size +
      (refills + 1) := by
    rwa [size_ahead_carriedOver]
  obtain ⟨later, hfill, htopped, hstop⟩ := fill_toppedUp hroom (exhausted_or_lt_of_read hopen hmore)
  refine ⟨later, ?_, .exchanged hopen hmissing hfull hreach hexchange htopped hstop⟩
  rw [Faithful.fill_succ hdone hrefill, hfill]

theorem Sound.peeked (h : c.Sound) (k : Nat) :
    ∃ b later, c.peek k = .ok (b, later) ∧ Peeked k c later := by
  unfold peek
  cases hseen : c.window.ahead.get? k with
  | some b =>
    rw [Lookahead.get?_eq] at hseen
    obtain ⟨hlt, -⟩ := List.getElem?_eq_some_iff.1 hseen
    rw [Lookahead.length_bytes] at hlt
    exact ⟨b, c, rfl, .unchanged (.inl hlt)⟩
  | none =>
    rw [Lookahead.get?_eq, List.getElem?_eq_none_iff, Lookahead.length_bytes] at hseen
    by_cases hmax : maxCapacity ≤ c.window.position + k
    · exact ⟨0, c, if_pos hmax, .unchanged (.inr (.inl hmax))⟩
    · obtain ⟨missing, hcount⟩ : ∃ missing, k + 1 - c.window.ahead.size = missing + 1 :=
        ⟨k - c.window.ahead.size, by omega⟩
      have hbound : k < c.window.ahead.size + (missing + 1) := by omega
      simp only [if_neg hmax, hcount]
      by_cases hended : c.isExhausted
      · rw [Faithful.fill_of_done (.inl hended)]
        exact ⟨_, c, rfl, .unchanged (.inr (.inr hended))⟩
      · have hopen : c.ended = none := by simpa [isExhausted] using hended
        by_cases hfits : c.window.position + k < c.capacity
        · obtain ⟨later, hfill, htopped, hdone⟩ := fill_toppedUp hfits (.inr hbound)
          rw [hfill]
          exact ⟨_, later, rfl, .toppedUp hopen hseen hfits htopped hdone⟩
        · obtain ⟨later, hfill, hlater⟩ := h.fill_exchanged hopen hseen (Nat.le_of_not_lt hfits)
            (Nat.lt_of_not_le hmax) hbound
          rw [hfill]
          exact ⟨_, later, rfl, hlater⟩

theorem Peeked.sound (hpeeked : Peeked k c later) (h : c.Sound) : later.Sound := by
  cases hpeeked with
  | unchanged => exact h
  | toppedUp _ _ _ htopped => exact htopped.sound h
  | exchanged hopen _ _ hreach hexchange htopped =>
    have hposition : c.window.position = c.window.start + c.window.mark := rfl
    have hmark : c.window.mark + k < maxCapacity := by omega
    exact htopped.sound ((h.carriedOver hopen hmark hexchange).read hopen)

/-- A peek that comes to the end of the stream looked behind it, at an index that a buffer can
have. -/
theorem Peeked.reach_of_ended (hpeeked : Peeked k c later) (h : c.Sound) (hopen : c.ended = none)
    (hended : later.isExhausted) :
    c.window.position + k < maxCapacity ∧ later.window.ahead.size ≤ k := by
  cases hpeeked with
  | unchanged =>
    rw [isExhausted, hopen] at hended
    cases hended
  | toppedUp _ _ hfits htopped =>
    exact ⟨Nat.lt_of_lt_of_le hfits (h.capacity_le hopen), htopped.size_ahead_le hopen hended⟩
  | @exchanged pool events _ _ hmissing _ hreach _ htopped =>
    refine ⟨hreach, ?_⟩
    by_cases hnext : (c.carriedOver (c.window.mark + k) pool events).read.isExhausted
    · have hnone := arriving_of_exhausted (c := c.carriedOver _ pool events) hopen hnext
      rw [htopped.eq_of_exhausted hnext, window_read, hnone, Window.size_ahead_extend,
        size_ahead_carriedOver]
      exact hmissing
    · exact htopped.size_ahead_le (by simpa [isExhausted] using hnext) hended

theorem Sound.peeked_of_peek (h : c.Sound) {b : UInt8} (hpeek : c.peek k = .ok (b, later)) :
    Peeked k c later := by
  obtain ⟨_, _, hpeek', hpeeked⟩ := h.peeked k
  cases hpeek.symm.trans hpeek'
  exact hpeeked

end Cursor
end StreamCursor
