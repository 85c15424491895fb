import StreamCursor.Proofs.Cursor.Peek
import StreamCursor.Proofs.Journal

/-! How many bytes a cursor carries from one buffer to the next. Main statement: whatever is peeked
at, the bytes carried stay within three times the bytes delivered. An exchange that keeps the
capacity retires at least as many bytes as it carries, and the growing ones pay for each other. -/

namespace StreamCursor

namespace Pool

variable {pool after : Pool} {retired fresh : Buffer} {carryFrom needed : Nat}
  {events : List Event}

theorem Exchanged.isOfPool (h : Exchanged pool retired carryFrom needed events fresh after) :
    ∀ e ∈ events, e.isOfPool = true := by
  cases h <;> simp [Event.isOfPool]

end Pool

namespace Cursor

variable {σ : Type} {c later : Cursor σ} {aim k : Nat}

/-- What a read reports. -/
theorem read_journal [Source σ] (c : Cursor σ) :
    ∃ events, c.read.journal = events ++ c.journal ∧ (∀ e ∈ events, e.isOfRead = true) ∧
      deliveredBytes events = c.arriving.length := by
  unfold read arriving reply
  rcases Source.read c.source c.spare with ⟨⟨written, cause | count⟩, source⟩
  · exact ⟨[.delivered 0, .failed c.arrived cause], rfl, by simp [Event.isOfRead], rfl⟩
  · dsimp only
    by_cases hnone : (Reply.delivered ⟨written, .ok count⟩ c.spare).isEmpty
    · rw [if_pos hnone, List.isEmpty_iff.1 hnone]
      exact ⟨[.ended c.arrived, .delivered 0], rfl, by simp [Event.isOfRead], rfl⟩
    · rw [if_neg hnone]
      exact ⟨[.delivered (Reply.delivered ⟨written, .ok count⟩ c.spare).length], rfl,
        by simp [Event.isOfRead], rfl⟩

/-- What an exchange reports. -/
theorem journal_carriedOver (c : Cursor σ) (reach : Nat) (pool : Pool) (events : List Event) :
    ∃ growth, (growth = [] ∨ growth = [.growing c.capacity (nextCapacity c.capacity reach)]) ∧
      (c.carriedOver reach pool events).journal = events.reverse ++
        .swapping c.tokenOffset (c.window.mark + c.window.ahead.size) :: (growth ++ c.journal) := by
  unfold carriedOver announcement
  by_cases hgrows : c.capacity < 2 * reach
  · exact ⟨_, .inr rfl, by simp [log, hgrows]⟩
  · exact ⟨_, .inl rfl, by simp [log, hgrows]⟩

theorem arrived_carriedOver (c : Cursor σ) (reach : Nat) (pool : Pool) (events : List Event) :
    (c.carriedOver reach pool events).arrived = c.arrived := by
  show c.base + c.window.start + (Window.ofBytes c.window.kept c.window.mark).stop =
    c.base + c.window.stop
  rw [Window.stop_ofBytes, Window.length_kept, Window.stop, Window.position]
  omega

theorem arrived_read [Source σ] (c : Cursor σ) :
    c.read.arrived = c.arrived + c.arriving.length := by
  rw [arrived, base_read, window_read, Window.stop_extend, arrived, Nat.add_assoc]

/-- What exchanges may have carried: those that kept the capacity no more than they retired, and
those that grew it no more than half of the capacity, unless it is the greatest, and no more than
twice the bytes delivered, as soon as those reach up to `aim`. -/
structure Budget (kept grown aim : Nat) (c : Cursor σ) : Prop where
  kept_le : kept ≤ c.base
  grown_half : c.capacity < maxCapacity → 2 * grown ≤ c.capacity
  grown_twice : c.ended = none → grown ≤ 2 * max c.arrived aim

namespace Budget

variable {kept grown : Nat}

/-- Once the bytes delivered reach up to the aim, or no more will be, it is of no account. -/
theorem settle (h : c.Budget kept grown aim) (hdone : c.isExhausted ∨ aim ≤ c.arrived) :
    c.Budget kept grown 0 := by
  refine ⟨h.kept_le, h.grown_half, fun hopen => ?_⟩
  have haim : aim ≤ c.arrived := hdone.resolve_left (by simp [isExhausted, hopen])
  have htwice := h.grown_twice hopen
  omega

/-- More bytes change nothing that was carried. -/
theorem extend (h : c.Budget kept grown aim) (hbase : later.base = c.base)
    (hcapacity : later.capacity = c.capacity) (harrived : c.arrived ≤ later.arrived)
    (hended : later.ended = none → c.ended = none) : later.Budget kept grown aim := by
  refine ⟨hbase ▸ h.kept_le, hcapacity ▸ h.grown_half, fun hopen => ?_⟩
  have htwice := h.grown_twice (hended hopen)
  omega

/-- The bytes that an exchange carries are in the buffer still, and so not among those retired. -/
theorem carried_le (h : c.Budget kept grown 0) (hopen : c.ended = none) :
    kept + grown + (c.window.mark + c.window.ahead.size) ≤ 3 * c.arrived := by
  have hkept := h.kept_le
  have htwice := h.grown_twice hopen
  have harrived : c.arrived = c.base + (c.window.start + c.window.mark + c.window.ahead.size) := rfl
  omega

/-- An exchange that keeps the capacity retires as many bytes as it carries, since the token starts
in the second half of the buffer. One that grows it carries at most half of what it grows by. -/
theorem exchange (h : c.Budget kept grown 0) (hsound : c.Sound) (hopen : c.ended = none)
    (hmissing : c.window.ahead.size ≤ k) (hfull : c.capacity ≤ c.window.position + k)
    (hreach : c.window.position + k < maxCapacity) (pool : Pool) (events : List Event) :
    ∃ kept' grown', kept' + grown' = kept + grown + (c.window.mark + c.window.ahead.size) ∧
      (c.carriedOver (c.window.mark + k) pool events).Budget kept' grown' (c.offset + k) := by
  have hkept := h.kept_le
  have hhalf := h.grown_half
  have htwice := h.grown_twice hopen
  have hroom := hsound.room hopen
  have hpos := hsound.capacity_pos hopen
  have hstop : c.window.stop = c.window.start + c.window.mark + c.window.ahead.size := rfl
  have hposition : c.window.position = c.window.start + c.window.mark := rfl
  have hoffset : c.offset = c.base + (c.window.start + c.window.mark) := rfl
  have hbase : (c.carriedOver (c.window.mark + k) pool events).base = c.base + c.window.start := rfl
  have hcapacity : (c.carriedOver (c.window.mark + k) pool events).capacity =
      nextCapacity c.capacity (c.window.mark + k) := rfl
  have harrived := arrived_carriedOver c (c.window.mark + k) pool events
  by_cases hgrows : c.capacity < 2 * (c.window.mark + k)
  · have hnext : nextCapacity c.capacity (c.window.mark + k) =
        min (2 * c.capacity + (c.window.mark + k)) maxCapacity := if_pos hgrows
    refine ⟨kept, grown + (c.window.mark + c.window.ahead.size), by omega, ?_, ?_, ?_⟩
    · rw [hbase]
      omega
    · rw [hcapacity, hnext]
      omega
    · intro _
      omega
  · have hnext := nextCapacity_of_le (Nat.le_of_not_lt hgrows) hpos
    refine ⟨kept + (c.window.mark + c.window.ahead.size), grown, by omega, ?_, ?_, ?_⟩
    · rw [hbase]
      omega
    · rw [hcapacity, hnext]
      omega
    · intro _
      omega

end Budget

/-- What exchanges have carried so far was affordable, and the budget for more is kept. -/
structure Frugal (aim : Nat) (c : Cursor σ) : Prop where
  delivered_eq : deliveredBytes c.journal = c.arrived
  affordable : Affordable c.journal
  conclusive : Conclusive c.journal c.capacity
  budget : ∃ kept grown, carriedBytes c.journal = kept + grown ∧ c.Budget kept grown aim

namespace Frugal

theorem settle (h : c.Frugal aim) (hdone : c.isExhausted ∨ aim ≤ c.arrived) : c.Frugal 0 := by
  obtain ⟨kept, grown, hsum, hbudget⟩ := h.budget
  exact ⟨h.delivered_eq, h.affordable, h.conclusive, kept, grown, hsum, hbudget.settle hdone⟩

/-- Quiet events that bring more bytes. -/
theorem extend (h : c.Frugal aim) {events : List Event}
    (hquiet : ∀ e ∈ events, e.isExchange = false) (hjournal : later.journal = events ++ c.journal)
    (harrived : later.arrived = deliveredBytes events + c.arrived) (hbase : later.base = c.base)
    (hcapacity : later.capacity = c.capacity) (hended : later.ended = none → c.ended = none) :
    later.Frugal aim := by
  obtain ⟨kept, grown, hsum, hbudget⟩ := h.budget
  have hnone := carriedBytes_eq_zero hquiet
  constructor
  · rw [hjournal, deliveredBytes_append, h.delivered_eq, harrived]
  · rw [hjournal]
    exact h.affordable.append hnone
  · rw [hjournal, hcapacity]
    exact h.conclusive.append hquiet
  · refine ⟨kept, grown, ?_, hbudget.extend hbase hcapacity (by omega) hended⟩
    rw [hjournal, carriedBytes_append, hnone, Nat.zero_add, hsum]

theorem reposition (h : c.Frugal aim) {window : Window} (hbytes : window.bytes = c.window.bytes)
    (pending : Nat) : Frugal aim { c with window, pending } := by
  have harrived : arrived { c with window, pending } = c.arrived :=
    congrArg (c.base + ·) (Window.stop_of_bytes hbytes)
  have hquiet : ∀ e ∈ ([] : List Event), e.isExchange = false := nofun
  exact h.extend hquiet rfl (harrived.trans (Nat.zero_add _).symm) rfl rfl id

theorem consume (h : c.Frugal aim) (n : Nat) : (c.consume n).Frugal aim := by
  have hquiet : ∀ e ∈ ([] : List Event), e.isExchange = false := nofun
  exact h.extend hquiet rfl (Nat.zero_add _).symm rfl rfl id

theorem carriedOver (h : c.Frugal 0) (hsound : c.Sound) (hopen : c.ended = none)
    (hmissing : c.window.ahead.size ≤ k) (hfull : c.capacity ≤ c.window.position + k)
    (hreach : c.window.position + k < maxCapacity) (pool : Pool) {events : List Event}
    (hevents : ∀ e ∈ events, e.isOfPool = true) :
    (c.carriedOver (c.window.mark + k) pool events).Frugal (c.offset + k) := by
  obtain ⟨kept, grown, hsum, hbudget⟩ := h.budget
  obtain ⟨kept', grown', hsum', hbudget'⟩ :=
    hbudget.exchange hsound hopen hmissing hfull hreach pool events
  obtain ⟨growth, hgrowth, hjournal⟩ :=
    journal_carriedOver c (c.window.mark + k) pool events
  have hfree : carriedBytes growth = 0 ∧ deliveredBytes growth = 0 := by
    rcases hgrowth with rfl | rfl <;> exact ⟨rfl, rfl⟩
  have hquiet : ∀ e ∈ events.reverse, e.isExchange = false :=
    fun e he => (Event.isOfPool_quiet (hevents e (List.mem_reverse.1 he))).1
  have hnone := carriedBytes_eq_zero hquiet
  have hbrought : deliveredBytes events.reverse = 0 := by
    unfold deliveredBytes
    rw [List.sum_eq_zero_iff_forall_eq_nat]
    simpa using fun e he => (Event.isOfPool_quiet (hevents e he)).2
  have hswap : (Event.swapping c.tokenOffset (c.window.mark + c.window.ahead.size)).carried =
      c.window.mark + c.window.ahead.size := rfl
  have hdelivered := h.delivered_eq
  have hcarried := hbudget.carried_le hopen
  have hlt : c.capacity < maxCapacity := Nat.lt_of_le_of_lt hfull hreach
  constructor
  · rw [hjournal, arrived_carriedOver]
    simp [hbrought, hfree.2, hdelivered, Event.brought]
  · rw [hjournal]
    apply Affordable.append _ hnone
    apply (h.affordable.append hfree.1).cons
    simp only [carriedBytes_cons, carriedBytes_append, deliveredBytes_cons, deliveredBytes_append]
    omega
  · rw [hjournal]
    exact (h.conclusive.swapping hlt hgrowth _ _).append hquiet
  · refine ⟨kept', grown', ?_, hbudget'⟩
    simp only [hjournal, carriedBytes_cons, carriedBytes_append]
    omega

variable [Source σ]

theorem read (h : c.Frugal aim) (hopen : c.ended = none) : c.read.Frugal aim := by
  obtain ⟨events, hjournal, hreads, hdelivered⟩ := c.read_journal
  have hquiet : ∀ e ∈ events, e.isExchange = false :=
    fun e he => (Event.isOfRead_quiet (hreads e he)).1
  refine h.extend hquiet hjournal ?_ (base_read c) (capacity_read c) fun _ => hopen
  rw [arrived_read, hdelivered, Nat.add_comm]

theorem toppedUp (h : c.Frugal aim) (htopped : ToppedUp k c later) : later.Frugal aim := by
  induction htopped with
  | done => exact h
  | @more c _ hopen _ _ ih =>
    have hlog : (c.log [.toppingUp c.window.stop c.capacity]).Frugal aim :=
      h.extend (by simp [Event.isExchange]) rfl (Nat.zero_add _).symm rfl rfl id
    exact ih (hlog.read hopen)

/-- A peek carries no more than it can afford. -/
theorem peeked (h : c.Frugal 0) (hsound : c.Sound) (hpeeked : Peeked k c later) :
    later.Frugal 0 := by
  cases hpeeked with
  | unchanged => exact h
  | toppedUp _ _ _ htopped => exact h.toppedUp htopped
  | @exchanged pool events _ hopen hmissing hfull hreach hexchange htopped hdone =>
    have hcarried := h.carriedOver hsound hopen hmissing hfull hreach pool hexchange.isOfPool
    have hlater := (hcarried.read hopen).toppedUp htopped
    have hplace : c.SamePlace later :=
      (Faithful.samePlace_carriedOver c (c.window.mark + k) pool events).trans
        ((Faithful.samePlace_read _).trans htopped.samePlace)
    have hoffset := hplace.offset
    apply hlater.settle
    rcases hdone with hended | hseen
    · exact .inl hended
    · right
      have harrived : later.arrived = later.offset + later.window.ahead.size := by
        rw [arrived, offset, Window.stop, Nat.add_assoc]
      omega

end Frugal
end Cursor
end StreamCursor
