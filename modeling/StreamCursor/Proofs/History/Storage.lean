import StreamCursor.Proofs.Cursor.Growth
import StreamCursor.Proofs.History.Ending
import StreamCursor.Proofs.Pool.Storage
import StreamCursor.Source.InMemory

/-! All the storage there is. Main statement: a pool neither loses nor drops a buffer and obtains a
new one only where nothing serves, so that a cursor always has, in its pool and in use, the buffer
it was opened with and those obtained since. -/

namespace StreamCursor

variable {σ : Type}

namespace Cursor

/-- The cursor has storage of the capacity it was opened with, and all that was obtained since. -/
structure Provided (capacity : Nat) (c : Cursor σ) : Prop extends Sound c where
  retained_eq : c.pool.occupancy.retained + c.capacity = capacity + obtainedBytes c.journal

variable {capacity : Nat}

theorem lasting_provided : Lasting (Provided (σ := σ) capacity) where
  reposition _ _ pending h hbytes := ⟨h.toSound.reposition hbytes pending, h.retained_eq⟩
  consume c n h := by
    refine ⟨h.toSound.consume n, ?_⟩
    have hretained : (c.consume n).pool.occupancy.retained = c.pool.occupancy.retained :=
      congrArg List.sum (Pool.capacities_consume c.pool n)
    rw [hretained]
    exact h.retained_eq

variable [Source σ] {c later : Cursor σ} {k : Nat}

theorem Provided.peeked (h : c.Provided capacity) (hpeeked : Peeked k c later) :
    later.Provided capacity := by
  refine ⟨hpeeked.sound h.toSound, ?_⟩
  have hretained := h.retained_eq
  by_cases hgrows : c.Outgrows k
  · obtain ⟨events, hexchange, hcapacity, reads, growth, hreads, hgrowth, hjournal⟩ :=
      hpeeked.moved hgrows
    have hobtained : later.pool.occupancy.retained +
        nextCapacity c.capacity (c.window.mark + k) =
          c.pool.occupancy.retained + c.capacity + obtainedBytes events := hexchange.retained_eq
    have hnone : obtainedBytes growth = 0 := by rcases hgrowth with rfl | rfl <;> rfl
    rw [hjournal, hcapacity]
    simp only [obtainedBytes_append, obtainedBytes_cons, obtainedBytes_reverse,
      obtainedBytes_eq_zero hreads, hnone, Event.obtained]
    omega
  · obtain ⟨hpool, hcapacity, reads, hjournal, hreads⟩ := hpeeked.unmoved hgrows
    rw [hpool, hcapacity, hjournal, obtainedBytes_append, obtainedBytes_eq_zero hreads,
      Nat.zero_add]
    exact hretained

theorem provided_unread (source : σ) (hpos : 0 < capacity) (hmax : capacity ≤ maxCapacity) :
    (unread source capacity).Provided capacity := by
  have hfaithful : (unread source capacity).Faithful (.any σ) [] 0 :=
    faithful_unread trivial hpos hmax
  exact ⟨hfaithful.toSound, Nat.zero_add _⟩

theorem peek_provided (k : Nat) :
    Scan.Meets (Provided (σ := σ) capacity) (Scan.peek k) fun _ => Provided capacity := by
  intro c hc
  obtain ⟨b, later, hpeek, hpeeked⟩ := hc.toSound.peeked k
  exact ⟨b, later, hpeek, hc.peeked hpeeked⟩

theorem ofSource_provided {source : σ} {options : Options} {opened : Cursor σ}
    (hopen : ofSource source options = .ok opened) (hadopts : adopts source options = false) :
    opened.Provided (max options.bufferSize 1) := by
  obtain ⟨hmax, rest, b, -, hpeek⟩ := opening_of_not_adopts hopen hadopts
  have hunread := provided_unread rest (by omega) hmax
  exact hunread.peeked (hunread.toSound.peeked_of_peek hpeek)

end Cursor

/-- After any calls of a pool, an exchange that succeeds takes the first block not in use that is
large enough, which holds nothing that is not consumed. Together the buffers there are keep their
capacities, and one of the capacity asked for is added just where neither a block nor the retired
buffer serves. Consuming changes no buffer. So the blocks of a cursor that adopted nothing have,
with its buffer, the capacity that it was opened with and all that was obtained since. -/
theorem History.run_conserves_storage :
    (∀ (calls : List Pool.Call) (pool : Pool), Pool.run calls = .ok pool →
      ∃ ledger, Ledger.run calls = .ok ledger ∧ ledger.pool = pool ∧
        ledger.freed = (calls.map Pool.Call.freed).sum ∧
        (∀ slot, (pool.bufferAt slot).bytes = (ledger.holding slot).1 ∧ ledger.holding slot ∈
          ([], 0) :: Backlog.endings 0 (calls.filterMap Pool.Call.portion?)) ∧
        (∀ n, (pool.consume n).blocks.map (·.buffer) = pool.blocks.map (·.buffer)) ∧
        ∀ retired carryFrom needed events fresh after,
          pool.exchange retired carryFrom needed = (events, .ok (fresh, after)) →
          (pool.Misses retired carryFrom needed →
            events = [.allocated needed pool.blocks.size] ∧
            after.blocks.size = pool.blocks.size + 1 ∧
            (fresh.capacity :: after.capacities).Perm
              (needed :: retired.capacity :: pool.capacities)) ∧
          (¬pool.Misses retired carryFrom needed →
            obtainedBytes events = 0 ∧ after.blocks.size = pool.blocks.size ∧
            (fresh.capacity :: after.capacities).Perm (retired.capacity :: pool.capacities)) ∧
          ∀ slot, pool.Serves needed slot → (∀ other < slot, ¬pool.Serves needed other) →
            (events = [.claimed slot (pool.bufferAt slot).capacity needed] ∧
              fresh.capacity = (pool.bufferAt slot).capacity ∧
              after.bufferAt slot = ⟨retired.bytes.take carryFrom, retired.capacity⟩ ∧
              ∀ other, slot ≠ other → after.bufferAt other = pool.bufferAt other) ∧
            ((ledger.holding slot).1 = [] ∨ (ledger.holding slot).2 ≤ ledger.freed)) ∧
    ∀ (σ : Type) [Source σ] (source : σ) (options : Options) (opened : Cursor σ),
      Cursor.ofSource source options = .ok opened → Cursor.adopts source options = false →
      ∀ ops, ∃ h, run { cursor := opened } ops = .ok h ∧
        h.cursor.pool.occupancy.retained + h.cursor.capacity =
          max options.bufferSize 1 + obtainedBytes h.cursor.journal := by
  constructor
  · intro calls pool hrun
    obtain ⟨ledger, hledger, rfl, hfreed, hsound⟩ := Ledger.sound_empty.run hrun
    refine ⟨ledger, hledger, rfl, hfreed.trans (Nat.zero_add _), ?_, Pool.buffers_consume _, ?_⟩
    · exact fun slot => ⟨hsound.balanced.bytes_eq slot, hsound.holding_mem slot⟩
    · intro retired carryFrom needed events fresh after hex
      have hexchanged := Pool.exchanged_of_exchange hex
      refine ⟨hexchanged.capacities_of_misses, hexchanged.capacities_of_not_misses, ?_⟩
      intro slot hserves hfirst
      exact ⟨hexchanged.claims_first hserves hfirst,
        hsound.consumed_of_reusable? (Pool.reusable?_eq_some_iff.2 ⟨hserves, hfirst⟩)⟩
  · intro σ _ source options opened hopen hadopts ops
    have hprovided := Cursor.ofSource_provided hopen hadopts
    obtain ⟨h, hrun, hlast⟩ := run_keeps Cursor.lasting_provided Cursor.peek_provided ops
      (h := { cursor := opened }) hprovided
    exact ⟨h, hrun, hlast.retained_eq⟩

/-- A block that was consumed to its end is claimed for two bytes, while it is too small for five.
A cursor that looks five bytes ahead obtains a buffer and retires its first one. -/
theorem History.run_conserves_storage_claimed :
    ∃ (pool claimed added : Pool) (taken new : Buffer) (ledger : Ledger) (opened : Cursor Bytes)
      (h : History Bytes),
      Pool.run [.swap ⟨[1, 2, 3], 4⟩ 4, .consume 3] = .ok pool ∧
      Ledger.run [.swap ⟨[1, 2, 3], 4⟩ 4, .consume 3] = .ok ledger ∧
      ledger.holding 0 = ([1, 2, 3], 3) ∧ (ledger.holding 0).2 ≤ ledger.freed ∧
      pool.exchange ⟨[4, 5], 8⟩ 1 2 = ([.claimed 0 4 2], .ok (taken, claimed)) ∧
      claimed.bufferAt 0 = ⟨[4], 8⟩ ∧ taken.capacity = 4 ∧
      (taken.capacity :: claimed.capacities).Perm (8 :: pool.capacities) ∧
      pool.exchange ⟨[4, 5], 8⟩ 1 5 = ([.allocated 5 1], .ok (new, added)) ∧
      (new.capacity :: added.capacities).Perm (5 :: 8 :: pool.capacities) ∧
      Cursor.ofSource ([1, 2, 3, 4, 5, 6, 7, 8] : Bytes) { bufferSize := 2, adopt := false } =
        .ok opened ∧
      run { cursor := opened } [.peek 5] = .ok h ∧ h.cursor.capacity = 9 ∧
      h.cursor.pool.occupancy.retained + h.cursor.capacity =
        2 + obtainedBytes h.cursor.journal := by
  obtain ⟨hpool, hcursor⟩ := run_conserves_storage
  obtain ⟨pool, hcalls⟩ : ∃ pool, Pool.run [.swap ⟨[1, 2, 3], 4⟩ 4, .consume 3] = .ok pool :=
    ⟨_, rfl⟩
  obtain ⟨ledger, hledger, rfl, -, -, -, hexchange⟩ := hpool _ _ hcalls
  have hserves : ledger.pool.Serves 2 0 := by
    cases hledger
    exact ⟨_, rfl, rfl, by decide⟩
  cases hledger
  obtain ⟨-, hkept, hclaims⟩ := hexchange ⟨[4, 5], 8⟩ 1 2 _ _ _ rfl
  obtain ⟨hadds, -, -⟩ := hexchange ⟨[4, 5], 8⟩ 1 5 _ _ _ rfl
  obtain ⟨⟨-, htaken, hclaimed, -⟩, hspent⟩ := hclaims 0 hserves nofun
  obtain ⟨-, -, hadded⟩ := hadds ⟨Pool.reusable?_eq_none_iff.1 rfl, by decide⟩
  obtain ⟨-, -, hstored⟩ := hkept fun hmiss => hmiss.1 0 hserves
  obtain ⟨h, hrun, hretained⟩ :=
    hcursor Bytes [1, 2, 3, 4, 5, 6, 7, 8] { bufferSize := 2, adopt := false } _ rfl rfl [.peek 5]
  cases hrun
  exact ⟨_, _, _, _, _, _, _, _, hcalls, rfl, rfl, hspent.resolve_left (by decide), rfl, hclaimed,
    htaken, hstored, rfl, hadded, rfl, rfl, rfl, hretained⟩

end StreamCursor
