import StreamCursor.Proofs.Cursor.Carrying
import StreamCursor.Proofs.Pool.Stock
import StreamCursor.Proofs.Source.Recorder

/-! What the journal of a cursor says of its reads, of the end of its stream and of its blocks.
Main statement: a peek reports each read that it makes with the bytes it brought, the end of the
stream once and where it is, and each block that it adds; and it reports where the storage for a
buffer comes from right after the exchange of that buffer. -/

namespace StreamCursor

namespace Event

/-- How many bytes a read brought, if the event reports one. -/
def delivered? : Event → Option Nat
  | delivered count => some count
  | _ => none

/-- Whether the event says that nothing more will be read. -/
def concludes : Event → Bool
  | adopted _ | ended _ | failed .. => true
  | _ => false

/-- The offset of the end of the stream, if the event tells it. -/
def endOffset? : Event → Option Nat
  | ended offset | failed offset _ => some offset
  | _ => none

/-- The block that was added, if the event reports one. -/
def allocatedSlot? : Event → Option Nat
  | allocated _ slot => some slot
  | _ => none

theorem endOffset?_of_not_concludes {e : Event} (h : e.concludes = false) :
    e.endOffset? = none := by
  cases e <;> simp_all [concludes, endOffset?]

theorem isOfPool_silent {e : Event} (h : e.isOfPool = true) :
    e.delivered? = none ∧ e.concludes = false := by
  cases e <;> simp_all [isOfPool, delivered?, concludes]

theorem isExchange_silent {e : Event} (h : e.isExchange = true) :
    e.delivered? = none ∧ e.concludes = false ∧ e.allocatedSlot? = none := by
  cases e <;> simp_all [isExchange, delivered?, concludes, allocatedSlot?]

end Event

/-- Exchanges and what the pool reports alternate. A journal has the latest event first, so that the
report is put in front of the exchange. -/
inductive Paired : List Event → Prop where
  | nil : Paired []
  | other {e : Event} {journal : List Event} (hswapping : e.isSwapping = false)
      (hpool : e.isOfPool = false) (h : Paired journal) : Paired (e :: journal)
  | exchange {e : Event} {journal : List Event} (hpool : e.isOfPool = true)
      (offset carried : Nat) (h : Paired journal) :
      Paired (e :: .swapping offset carried :: journal)

namespace Paired

variable {journal newer older : List Event} {offset carried : Nat}

theorem takeWhile_append_swapping (events rest : List Event) :
    (events ++ .swapping offset carried :: rest).takeWhile (!·.isSwapping) =
      events.takeWhile (!·.isSwapping) := by
  induction events with
  | nil => rfl
  | cons e events ih =>
    rw [List.cons_append, List.takeWhile_cons, List.takeWhile_cons, ih]

/-- A later event that is not the pool's leaves the events before the next exchange as they were. -/
theorem quiet_concat {e : Event} {rest : List Event} (he : e.isOfPool = false)
    (h : ∀ f ∈ rest.takeWhile (!·.isSwapping), f.isOfPool = false) :
    ∀ f ∈ (rest ++ [e]).takeWhile (!·.isSwapping), f.isOfPool = false := by
  intro f hf
  rw [List.takeWhile_append] at hf
  split at hf
  next hall =>
    have hsame := (List.takeWhile_prefix (!Event.isSwapping ·)).eq_of_length hall
    rcases List.mem_append.1 hf with hf | hf
    · exact h f (by rwa [hsame])
    · rw [List.mem_singleton.1 ((List.takeWhile_prefix _).subset hf)]
      exact he
  · exact h f hf

/-- Between one exchange and the next, just the event right after it is the pool's. -/
theorem after_swapping (h : Paired journal)
    (hjournal : journal = newer ++ .swapping offset carried :: older) :
    ∃ e rest, newer.reverse = e :: rest ∧ e.isOfPool = true ∧
      ∀ f ∈ rest.takeWhile (!·.isSwapping), f.isOfPool = false := by
  induction h generalizing newer with
  | nil => simp at hjournal
  | @other e journal hswapping hpool _ ih =>
    cases newer with
    | nil =>
      cases hjournal
      cases hswapping
    | cons e' newer =>
      cases hjournal
      obtain ⟨first, rest, hnewer, hfirst, hrest⟩ := ih rfl
      refine ⟨first, rest ++ [e], ?_, hfirst, quiet_concat hpool hrest⟩
      rw [List.reverse_cons, hnewer, List.cons_append]
  | @exchange e journal hpool offset' carried' _ ih =>
    match newer with
    | [] =>
      cases hjournal
      cases hpool
    | [e'] =>
      cases hjournal
      exact ⟨e, [], rfl, hpool, nofun⟩
    | e' :: swapping :: newer =>
      cases hjournal
      obtain ⟨first, rest, hnewer, hfirst, hrest⟩ := ih rfl
      refine ⟨first, rest ++ [.swapping offset' carried', e], ?_, hfirst, ?_⟩
      · rw [List.reverse_cons, List.reverse_cons, hnewer]
        simp
      · rw [takeWhile_append_swapping]
        exact hrest

end Paired

namespace Pool

variable {pool after : Pool} {retired fresh : Buffer} {carryFrom needed : Nat}
  {events : List Event}

/-- An exchange is reported by one event, and a block that is added takes the next number. -/
theorem Exchanged.reported (h : Exchanged pool retired carryFrom needed events fresh after) :
    ∃ e, events = [e] ∧ e.isOfPool = true ∧
      (e.allocatedSlot?.toList ++ (List.range pool.blocks.size).reverse =
        (List.range after.blocks.size).reverse) := by
  cases h with
  | claimed =>
    refine ⟨_, rfl, rfl, ?_⟩
    rw [size_blocks_retire]
    rfl
  | inPlace => exact ⟨_, rfl, rfl, rfl⟩
  | fresh =>
    refine ⟨_, rfl, rfl, ?_⟩
    rw [size_blocks_retire, grown, Array.size_push, List.range_succ, List.reverse_append]
    rfl

end Pool

namespace Cursor

variable {σ : Type}

/-- What a read reports, by whether it ends the stream. -/
theorem journal_read [Source σ] (c : Cursor σ) (hopen : c.ended = none) :
    (c.read.isExhausted = true ∧ c.arriving = [] ∧
      ((∃ cause, c.read.journal = .delivered 0 :: .failed c.arrived cause :: c.journal) ∨
        c.read.journal = .ended c.arrived :: .delivered 0 :: c.journal)) ∨
      (c.read.ended = none ∧ c.read.journal = .delivered c.arriving.length :: c.journal) := by
  unfold read arriving reply
  rcases Source.read c.source c.spare with ⟨⟨written, cause | count⟩, source⟩
  · exact .inl ⟨rfl, rfl, .inl ⟨cause, rfl⟩⟩
  · dsimp only
    by_cases hnone : (Reply.delivered ⟨written, .ok count⟩ c.spare).isEmpty
    · rw [if_pos hnone]
      exact .inl ⟨rfl, List.isEmpty_iff.1 hnone, .inr rfl⟩
    · rw [if_neg hnone]
      exact .inr ⟨hopen, rfl⟩

/-- The journal is an account of the reads on record, of the end of the stream and of the blocks. -/
structure Chronicled (c : Cursor (Recorder σ)) : Prop where
  delivered_eq : c.journal.filterMap Event.delivered? =
    (c.source.reads.map fun entry => (Recorder.received entry.1 entry.2).length).reverse
  concluded_eq : c.journal.countP Event.concludes = c.isExhausted.toNat
  endOffset_eq : ∀ e ∈ c.journal, ∀ offset, e.endOffset? = some offset → offset = c.arrived
  allocated_eq : c.journal.filterMap Event.allocatedSlot? =
    (List.range c.pool.blocks.size).reverse
  paired : Paired c.journal

namespace Chronicled

variable {c later : Cursor (Recorder σ)} {k : Nat}

theorem reposition (h : c.Chronicled) {window : Window} (hbytes : window.bytes = c.window.bytes)
    (pending : Nat) : Chronicled { c with window, pending } := by
  have harrived : arrived { c with window, pending } = c.arrived :=
    congrArg (c.base + ·) (Window.stop_of_bytes hbytes)
  exact ⟨h.delivered_eq, h.concluded_eq, harrived ▸ h.endOffset_eq, h.allocated_eq, h.paired⟩

theorem consume (h : c.Chronicled) (n : Nat) : (c.consume n).Chronicled := by
  refine ⟨h.delivered_eq, h.concluded_eq, h.endOffset_eq, ?_, h.paired⟩
  rw [Cursor.consume, Pool.consume, Pool.reclaim, Pool.size_blocks_reclaimFrom]
  exact h.allocated_eq

/-- More events, as long as the stream had not ended before them. -/
theorem extend (h : c.Chronicled) (hopen : c.ended = none) (events : List Event)
    (hjournal : later.journal = events ++ c.journal)
    (hdelivered : events.filterMap Event.delivered? ++
        (c.source.reads.map fun entry => (Recorder.received entry.1 entry.2).length).reverse =
      (later.source.reads.map fun entry => (Recorder.received entry.1 entry.2).length).reverse)
    (hconcluded : events.countP Event.concludes = later.isExhausted.toNat)
    (hend : ∀ e ∈ events, ∀ offset, e.endOffset? = some offset → offset = later.arrived)
    (hallocated : events.filterMap Event.allocatedSlot? ++ (List.range c.pool.blocks.size).reverse =
      (List.range later.pool.blocks.size).reverse)
    (hpaired : Paired (events ++ c.journal)) : later.Chronicled := by
  have hnone : c.journal.countP Event.concludes = 0 := by
    rw [h.concluded_eq, isExhausted, hopen]
    rfl
  have hquiet := List.countP_eq_zero.1 hnone
  constructor
  · rw [hjournal, List.filterMap_append, h.delivered_eq, hdelivered]
  · rw [hjournal, List.countP_append, hnone, hconcluded]
    rfl
  · rw [hjournal]
    refine List.forall_mem_append.2 ⟨hend, fun e he offset hoffset => ?_⟩
    have hsilent := Event.endOffset?_of_not_concludes (Bool.eq_false_iff.2 (hquiet e he))
    cases hsilent.symm.trans hoffset
  · rw [hjournal, List.filterMap_append, h.allocated_eq, hallocated]
  · rwa [hjournal]

theorem toppingUp (h : c.Chronicled) (hopen : c.ended = none) (filled capacity : Nat) :
    (c.log [.toppingUp filled capacity]).Chronicled := by
  have hgoing : (c.log [.toppingUp filled capacity]).isExhausted.toNat = 0 := by
    rw [isExhausted, log, hopen]
    rfl
  exact h.extend hopen [.toppingUp filled capacity] rfl rfl hgoing.symm
    (List.forall_mem_singleton.2 fun _ hoffset => by cases hoffset) rfl (.other rfl rfl h.paired)

variable [Source σ]

theorem read (h : c.Chronicled) (hopen : c.ended = none) : c.read.Chronicled := by
  have hreads : c.read.source.reads = c.source.reads ++ [(c.spare, c.reply)] := by
    rw [source_read]
    rfl
  have hdelivered : [c.arriving.length] ++
        (c.source.reads.map fun entry => (Recorder.received entry.1 entry.2).length).reverse =
      (c.read.source.reads.map fun entry =>
        (Recorder.received entry.1 entry.2).length).reverse := by
    rw [hreads, List.map_append, List.reverse_append, List.map_singleton, Recorder.received_eq]
    rfl
  have hallocated : [] ++ (List.range c.pool.blocks.size).reverse =
      (List.range c.read.pool.blocks.size).reverse := by rw [pool_read, List.nil_append]
  rcases c.journal_read hopen with
    ⟨hended, hnone, ⟨cause, hjournal⟩ | hjournal⟩ | ⟨hgoing, hjournal⟩
  · have harrived : c.arrived = c.read.arrived := by rw [arrived_read, hnone]; rfl
    rw [hnone] at hdelivered
    refine h.extend hopen [.delivered 0, .failed c.arrived cause] hjournal hdelivered
      (by rw [hended]; rfl) ?_ hallocated (.other rfl rfl (.other rfl rfl h.paired))
    refine List.forall_mem_cons.2 ⟨nofun, List.forall_mem_singleton.2 ?_⟩
    rintro _ ⟨⟩
    exact harrived
  · have harrived : c.arrived = c.read.arrived := by rw [arrived_read, hnone]; rfl
    rw [hnone] at hdelivered
    refine h.extend hopen [.ended c.arrived, .delivered 0] hjournal hdelivered
      (by rw [hended]; rfl) ?_ hallocated (.other rfl rfl (.other rfl rfl h.paired))
    refine List.forall_mem_cons.2 ⟨?_, List.forall_mem_singleton.2 nofun⟩
    rintro _ ⟨⟩
    exact harrived
  · exact h.extend hopen [.delivered c.arriving.length] hjournal hdelivered
      (by rw [isExhausted, hgoing]; rfl) (List.forall_mem_singleton.2 nofun) hallocated
      (.other rfl rfl h.paired)

omit [Source σ] in
theorem carriedOver (h : c.Chronicled) (hopen : c.ended = none) {reach carryFrom needed : Nat}
    {retired fresh : Buffer} {pool : Pool} {events : List Event}
    (he : Pool.Exchanged c.pool retired carryFrom needed events fresh pool) :
    (c.carriedOver reach pool events).Chronicled := by
  obtain ⟨e, rfl, hpool, hallocated⟩ := he.reported
  obtain ⟨growth, hgrowth, hjournal⟩ := journal_carriedOver c reach pool [e]
  obtain ⟨hdelivered, hconcludes⟩ := Event.isOfPool_silent hpool
  have hgoing : (c.carriedOver reach pool [e]).isExhausted.toNat = 0 :=
    congrArg (fun ended => ended.isSome.toNat) hopen
  have hpaired : Paired (growth ++ c.journal) := by
    rcases hgrowth with rfl | rfl
    · exact h.paired
    · exact .other rfl rfl h.paired
  have hsilent : ∀ f ∈ .swapping c.tokenOffset (c.window.mark + c.window.ahead.size) :: growth,
      f.delivered? = none ∧ f.concludes = false ∧ f.allocatedSlot? = none := by
    intro f hf
    apply Event.isExchange_silent
    rcases hgrowth with rfl | rfl
    · rw [List.mem_singleton.1 hf]
      rfl
    · rcases List.mem_cons.1 hf with rfl | hf
      · rfl
      · rw [List.mem_singleton.1 hf]
        rfl
  refine h.extend hopen
    (e :: .swapping c.tokenOffset (c.window.mark + c.window.ahead.size) :: growth)
    hjournal ?_ ?_ ?_ ?_ ?_
  · rw [List.filterMap_cons_none hdelivered,
      List.filterMap_eq_nil_iff.2 fun f hf => (hsilent f hf).1]
    rfl
  · rw [hgoing, List.countP_cons, hconcludes,
      List.countP_eq_zero.2 fun f hf => Bool.eq_false_iff.1 (hsilent f hf).2.1]
    rfl
  · refine List.forall_mem_cons.2 ⟨fun offset hoffset => ?_, fun f hf offset hoffset => ?_⟩
    · cases (Event.endOffset?_of_not_concludes hconcludes).symm.trans hoffset
    · cases (Event.endOffset?_of_not_concludes (hsilent f hf).2.1).symm.trans hoffset
  · rw [List.filterMap_cons, List.filterMap_eq_nil_iff.2 fun f hf => (hsilent f hf).2.2]
    change _ = (List.range pool.blocks.size).reverse
    rw [← hallocated]
    cases e.allocatedSlot? <;> rfl
  · exact .exchange hpool _ _ hpaired

theorem toppedUp (h : c.Chronicled) (htopped : ToppedUp k c later) : later.Chronicled := by
  induction htopped with
  | done => exact h
  | more hopen _ _ ih => exact ih ((h.toppingUp hopen _ _).read hopen)

theorem peeked (h : c.Chronicled) (hpeeked : Peeked k c later) : later.Chronicled := by
  cases hpeeked with
  | unchanged => exact h
  | toppedUp _ _ _ htopped => exact h.toppedUp htopped
  | exchanged hopen _ _ _ hexchange htopped =>
    exact ((h.carriedOver hopen hexchange).read hopen).toppedUp htopped

end Chronicled
end Cursor
end StreamCursor
