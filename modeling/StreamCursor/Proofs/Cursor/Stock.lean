import StreamCursor.Proofs.Cursor.Alike
import StreamCursor.Proofs.Cursor.Peek
import StreamCursor.Proofs.Pool.Stock

/-! The blocks that a cursor leaves in its pool. Main statements: a peek leaves no more blocks of
the capacity in use than there were before or than hold bytes afterwards, and it adds one of the
same capacity only if all of them hold bytes. -/

namespace StreamCursor
namespace Cursor

variable {σ : Type} [Source σ] {c later : Cursor σ} {k : Nat}

omit [Source σ] in
/-- How many blocks of the pool have the capacity of the active buffer. -/
def stock (c : Cursor σ) : Nat := c.pool.stock c.capacity

omit [Source σ] in
def inFlight (c : Cursor σ) : Nat := c.pool.occupancy.inFlight

theorem Healthy.peek (h : c.Healthy) (k : Nat) :
    ∃ b later, c.peek k = .ok (b, later) ∧ later.Healthy ∧ Peeked k c later := by
  obtain ⟨stream, freed, hc⟩ := h
  obtain ⟨later, part, hpeek, hlater, -⟩ := hc.peek k
  exact ⟨_, later, hpeek, ⟨_, _, hlater.faithful⟩, hc.toSound.peeked_of_peek hpeek⟩

omit [Source σ] in
/-- The token starts behind the front of a buffer that is exchanged for one of the same capacity. -/
theorem Sound.start_pos (h : c.Sound) (hopen : c.ended = none)
    (hfull : c.capacity ≤ c.window.position + k)
    (hkeeps : 2 * (c.window.mark + k) ≤ c.capacity) : 0 < c.window.start := by
  have hpos := h.capacity_pos hopen
  have hposition : c.window.position = c.window.start + c.window.mark := rfl
  omega

omit [Source σ] in
theorem start_le_size (c : Cursor σ) :
    c.window.start ≤ (⟨c.window.bytes, c.capacity⟩ : Buffer).size := by
  rw [Buffer.size, Window.length_bytes]
  exact c.window.start_le_stop

theorem Peeked.stock_le (hpeeked : Peeked k c later) (h : c.Healthy) :
    later.stock ≤ later.inFlight ∨
      later.capacity = c.capacity ∧ later.stock ≤ c.stock ∧ c.inFlight ≤ later.inFlight := by
  cases hpeeked with
  | unchanged => exact .inr ⟨rfl, Nat.le_refl _, Nat.le_refl _⟩
  | toppedUp _ _ _ htopped =>
    have hstock : later.stock = c.stock := by
      rw [stock, stock, htopped.pool_eq, htopped.capacity_eq]
    have hflight : later.inFlight = c.inFlight := by rw [inFlight, inFlight, htopped.pool_eq]
    exact .inr ⟨htopped.capacity_eq, Nat.le_of_eq hstock, Nat.le_of_eq hflight.symm⟩
  | @exchanged pool events _ hopen hmissing hfull hreach hexchange htopped hdone =>
    obtain ⟨portions, freed, haccounts⟩ := h.accounts
    have hsound := h.sound
    have hpool : later.pool = pool := htopped.pool_eq.trans (pool_read _)
    have hcapacity : later.capacity = nextCapacity c.capacity (c.window.mark + k) :=
      htopped.capacity_eq.trans (capacity_read _)
    simp only [stock, inFlight, hpool, hcapacity]
    by_cases hgrows : c.capacity < 2 * (c.window.mark + k)
    · left
      have hlt := lt_nextCapacity hgrows (Nat.lt_of_le_of_lt hfull hreach)
      rw [hexchange.stock_of_lt hsound.blocks_le hlt]
      exact Nat.zero_le _
    · have hkeeps := Nat.le_of_not_lt hgrows
      have hpos := hsound.start_pos hopen hfull hkeeps
      rw [nextCapacity_of_le hkeeps (hsound.capacity_pos hopen)] at hexchange ⊢
      have hchain := hexchange.length_chain_le haccounts c.start_le_size
      rcases hexchange.stock_le haccounts hsound.blocks_le c.start_le_size hpos with hstock | hstock
      · exact .inr ⟨rfl, hstock, hchain⟩
      · exact .inl hstock

/-- An exchange for a buffer of the same capacity adds a block only if all blocks of that capacity
hold bytes not yet consumed. -/
theorem Peeked.active_of_added (hpeeked : Peeked k c later) (hsame : later.capacity = c.capacity)
    (hadded : c.pool.blocks.size < later.pool.blocks.size) {slot : Nat}
    (hslot : slot < c.pool.blocks.size) (hcapacity : (c.pool.bufferAt slot).capacity = c.capacity) :
    Pool.activeAt c.pool.blocks slot = true := by
  cases hpeeked with
  | unchanged => exact absurd hadded (Nat.lt_irrefl _)
  | toppedUp _ _ _ htopped =>
    rw [htopped.pool_eq] at hadded
    exact absurd hadded (Nat.lt_irrefl _)
  | @exchanged pool events _ _ _ _ _ hexchange htopped =>
    have hpool : later.pool = pool := htopped.pool_eq.trans (pool_read _)
    have hnext : later.capacity = nextCapacity c.capacity (c.window.mark + k) :=
      htopped.capacity_eq.trans (capacity_read _)
    rw [hpool] at hadded
    rw [← hnext, hsame] at hexchange
    exact hexchange.active_of_added hadded hslot (Nat.le_of_eq hcapacity.symm)

end Cursor
end StreamCursor
