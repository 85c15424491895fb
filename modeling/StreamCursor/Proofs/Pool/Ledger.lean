import StreamCursor.Proofs.Cursor.Refill
import StreamCursor.Proofs.Pool.Accounting

/-! A pool with an account of what was put into each block. Main statement: after any calls, every
block that holds bytes not yet consumed is on the chain, so that none of them is claimed. -/

namespace StreamCursor

/-- The block into which committed bytes were put, if it was one. -/
def Event.place? : Event → Option Nat
  | claimed slot _ _ => some slot
  | allocated _ slot => some slot
  | _ => none

structure Ledger where
  pool : Pool := {}
  /-- How many bytes were committed. -/
  committed : Nat := 0
  /-- How many bytes were reported consumed. -/
  freed : Nat := 0
  /-- For each block, the bytes put into it last, and the offset at which they end among all bytes
  committed. -/
  holding : Nat → Bytes × Nat := fun _ => ([], 0)

namespace Ledger

open Pool (Call Exchanged WellFormed)

/-- The account of the blocks after a call put `entry` into those that it reports. -/
def enter (holding : Nat → Bytes × Nat) (entry : Bytes × Nat) (events : List Event) :
    Nat → Bytes × Nat :=
  fun slot => if slot ∈ events.filterMap Event.place? then entry else holding slot

/-- The ledger after a call that left `pool`. -/
def record (ledger : Ledger) (call : Call) (pool : Pool) : Ledger :=
  let portion := call.portion?.getD []
  let stop := ledger.committed + portion.length
  { pool
    committed := stop
    freed := ledger.freed + call.freed
    holding := enter ledger.holding (portion, stop) (call.events ledger.pool) }

def perform (ledger : Ledger) (call : Call) : Except Fault Ledger :=
  (call.perform ledger.pool).map (ledger.record call)

def run (calls : List Call) (ledger : Ledger := {}) : Except Fault Ledger :=
  calls.foldlM perform ledger

/-- What the blocks of a chain hold ends one after the other, from `start` up to `finish`. -/
def Stacked (holding : Nat → Bytes × Nat) : (start : Nat) → List Nat → (finish : Nat) → Prop
  | start, [], finish => start = finish
  | start, slot :: chain, finish =>
      (holding slot).2 = start + (holding slot).1.length ∧
        Stacked holding (holding slot).2 chain finish

namespace Stacked

variable {holding holding' : Nat → Bytes × Nat} {start finish : Nat} {chain : List Nat}

theorem congr (h : Stacked holding start chain finish)
    (hsame : ∀ slot ∈ chain, holding' slot = holding slot) :
    Stacked holding' start chain finish := by
  induction chain generalizing start with
  | nil => exact h
  | cons slot chain ih =>
    rw [List.forall_mem_cons] at hsame
    rw [Stacked, hsame.1]
    exact ⟨h.1, ih h.2 hsame.2⟩

theorem concat (h : Stacked holding start chain finish) (slot : Nat)
    (hslot : (holding slot).2 = finish + (holding slot).1.length) :
    Stacked holding start (chain ++ [slot]) (holding slot).2 := by
  induction chain generalizing start with
  | nil =>
    cases h
    exact ⟨hslot, rfl⟩
  | cons first chain ih => exact ⟨h.1, ih h.2⟩

/-- Reclaiming takes those blocks off the front whose bytes end within what was consumed. -/
theorem reclaimFrom (blocks : Array Block) (chain : List Nat) (consumed start : Nat)
    (hbytes : ∀ slot, (blocks[slot]?.getD {}).buffer.bytes = (holding slot).1)
    (h : Stacked holding start chain finish) :
    ∃ start', Stacked holding start' (Pool.reclaimFrom blocks chain consumed).chain finish ∧
      start' + (Pool.reclaimFrom blocks chain consumed).consumed = start + consumed ∧
      ∀ slot ∈ chain, slot ∈ (Pool.reclaimFrom blocks chain consumed).chain ∨
        (holding slot).2 ≤ start + consumed := by
  revert start
  fun_induction Pool.reclaimFrom blocks chain consumed with
  | case1 => exact fun start h => ⟨start, h, rfl, List.forall_mem_nil _⟩
  | case2 => exact fun start h => ⟨start, h, rfl, fun slot hslot => .inl hslot⟩
  | case3 blocks slot chain consumed size hsize ih =>
    intro start hstacked
    obtain ⟨hstop, hrest⟩ := hstacked
    have hlength : (holding slot).1.length = size := congrArg List.length (hbytes slot).symm
    have hkept : ∀ other, ((blocks.modify slot ({ · with active := false }))[other]?.getD
        {}).buffer.bytes = (holding other).1 := by
      intro other
      rw [← hbytes other, Array.getElem?_modify]
      split
      · cases blocks[other]? <;> rfl
      · rfl
    obtain ⟨start', hstacked', hsum, hgone⟩ := ih hkept _ hrest
    refine ⟨start', hstacked', by omega, ?_⟩
    intro other hother
    rcases List.mem_cons.1 hother with rfl | hother
    · right
      omega
    · exact (hgone other hother).imp_right fun hle => by omega

end Stacked

/-- The pool is as the account says: the blocks on the chain hold the last bytes committed, in
order, and every block with bytes that are not consumed is on it. -/
structure Balanced (pool : Pool) (holding : Nat → Bytes × Nat) (committed freed : Nat) : Prop where
  bytes_eq : ∀ slot, (pool.bufferAt slot).bytes = (holding slot).1
  stacked : ∃ start, Stacked holding start pool.chain committed ∧ start + pool.consumed = freed
  mem_chain : ∀ slot, (holding slot).1 ≠ [] → freed < (holding slot).2 → slot ∈ pool.chain

namespace Balanced

variable {pool after : Pool} {holding : Nat → Bytes × Nat} {committed freed : Nat}

theorem reclaim (h : Balanced pool holding committed freed) :
    Balanced pool.reclaim holding committed freed := by
  obtain ⟨start, hstacked, hsum⟩ := h.stacked
  obtain ⟨start', hstacked', hsum', hgone⟩ :=
    Stacked.reclaimFrom pool.blocks pool.chain pool.consumed start h.bytes_eq hstacked
  refine ⟨?_, ⟨start', hstacked', hsum'.trans hsum⟩, ?_⟩
  · intro slot
    rw [Pool.bufferAt_reclaim]
    exact h.bytes_eq slot
  · intro slot hne hlt
    exact (hgone slot (h.mem_chain slot hne hlt)).resolve_right (by omega)

theorem consume (h : Balanced pool holding committed freed) (n : Nat) :
    Balanced (pool.consume n) holding committed (freed + n) := by
  obtain ⟨start, hstacked, hsum⟩ := h.stacked
  apply Balanced.reclaim
  refine ⟨h.bytes_eq, ⟨start, hstacked, ?_⟩, ?_⟩
  · show start + (pool.consumed + n) = freed + n
    omega
  · intro slot hne hlt
    exact h.mem_chain slot hne (by omega)

theorem grown (h : Balanced pool holding committed freed) :
    Balanced pool.grown holding committed freed := by
  refine ⟨?_, h.stacked, h.mem_chain⟩
  intro slot
  rw [Pool.bufferAt_grown]
  exact h.bytes_eq slot

/-- The bytes put into a block that is not in use end behind all others. -/
theorem store (h : Balanced pool holding committed freed) {slot : Nat} (buffer : Buffer)
    (hslot : slot ∉ pool.chain) (hsize : slot < pool.blocks.size) {holding' : Nat → Bytes × Nat}
    (hentry : holding' slot = (buffer.bytes, committed + buffer.bytes.length))
    (hothers : ∀ other, other ≠ slot → holding' other = holding other) :
    Balanced (pool.store slot buffer) holding' (committed + buffer.bytes.length) freed := by
  obtain ⟨start, hstacked, hsum⟩ := h.stacked
  have hsame : ∀ other ∈ pool.chain, holding' other = holding other :=
    fun other hother => hothers other fun heq => hslot (heq ▸ hother)
  have hchain : (pool.store slot buffer).chain =
      if buffer.bytes = [] then pool.chain else pool.chain ++ [slot] := by
    by_cases hnil : buffer.bytes = [] <;> simp [Pool.store, hnil]
  refine ⟨?_, ⟨start, ?_, hsum⟩, ?_⟩
  · intro other
    by_cases hother : other = slot
    · rw [hother, Pool.bufferAt_store_self hsize, hentry]
    · rw [Pool.bufferAt_store_ne (Ne.symm hother), hothers other hother]
      exact h.bytes_eq other
  · rw [hchain]
    split
    next hnil =>
      rw [hnil]
      exact hstacked.congr hsame
    · have hconcat := (hstacked.congr hsame).concat slot (by rw [hentry])
      rwa [hentry] at hconcat
  · intro other hne hlt
    rw [hchain]
    by_cases hother : other = slot
    · subst hother
      rw [hentry] at hne
      rw [if_neg hne]
      exact List.mem_append_right _ (List.mem_singleton_self _)
    · rw [hothers other hother] at hne hlt
      have hmem := h.mem_chain other hne hlt
      split
      · exact hmem
      · exact List.mem_append_left _ hmem

/-- Bytes that were all consumed in advance are put nowhere. -/
theorem inPlace (h : Balanced pool holding committed freed) (hchain : pool.chain = []) {n : Nat}
    (hn : n ≤ pool.consumed) :
    Balanced { pool with consumed := pool.consumed - n } holding (committed + n) freed := by
  obtain ⟨start, hstacked, hsum⟩ := h.stacked
  rw [hchain] at hstacked
  cases hstacked
  refine ⟨h.bytes_eq, ⟨committed + n, ?_, ?_⟩, h.mem_chain⟩
  · show Stacked holding (committed + n) pool.chain (committed + n)
    rw [hchain]
    rfl
  · show committed + n + (pool.consumed - n) = freed
    omega

theorem exchanged (h : Balanced pool holding committed freed) (hw : pool.WellFormed)
    {retired fresh : Buffer} {carryFrom needed : Nat} {events : List Event}
    (he : Exchanged pool retired carryFrom needed events fresh after)
    (hstart : carryFrom ≤ retired.size) :
    Balanced after
      (enter holding (retired.bytes.take carryFrom,
        committed + (retired.bytes.take carryFrom).length) events)
      (committed + (retired.bytes.take carryFrom).length) freed := by
  cases he with
  | @claimed slot hslot =>
    apply Balanced.reclaim
    apply h.store _ (hw.notMem_of_reusable? hslot) (Pool.reusable?_some hslot).1
    · simp [enter, Event.place?]
    · intro other hother
      simp [enter, Event.place?, hother]
  | inPlace _ hchain hconsumed =>
    have hlength : (retired.bytes.take carryFrom).length = carryFrom :=
      List.length_take_of_le hstart
    rw [hlength]
    exact h.inPlace hchain hconsumed
  | fresh =>
    apply Balanced.reclaim
    apply h.grown.store _ hw.size_notMem_grown Pool.size_lt_grown
    · simp [enter, Event.place?]
    · intro other hother
      simp [enter, Event.place?, hother]

end Balanced

/-- The ledger stands where the portions committed leave it. -/
structure Sound (ledger : Ledger) (portions : List Bytes) : Prop
    extends WellFormed ledger.pool where
  balanced : Balanced ledger.pool ledger.holding ledger.committed ledger.freed
  committed_eq : ledger.committed = portions.flatten.length
  holding_mem : ∀ slot, ledger.holding slot ∈ ([], 0) :: Backlog.endings 0 portions

variable {ledger : Ledger} {portions : List Bytes} {pool : Pool} {call : Call}

theorem sound_empty : Sound {} [] where
  toWellFormed := Pool.wellFormed_empty
  balanced := ⟨fun _ => rfl, ⟨0, rfl, rfl⟩, fun _ hne => absurd rfl hne⟩
  committed_eq := rfl
  holding_mem _ := List.mem_singleton_self _

theorem enter_eq_or (holding : Nat → Bytes × Nat) (entry : Bytes × Nat) (events : List Event)
    (slot : Nat) :
    enter holding entry events slot = entry ∨ enter holding entry events slot = holding slot := by
  unfold enter
  split
  · exact .inl rfl
  · exact .inr rfl

theorem Sound.record (h : ledger.Sound portions) (hcall : call.perform ledger.pool = .ok pool) :
    (ledger.record call pool).Sound (portions ++ call.portion?.toList) := by
  obtain ⟨n, rfl, rfl⟩ | ⟨retired, carryFrom, needed, fresh, hex, -, hportion, hfreed⟩ :=
    Call.perform_cases hcall
  · have hportions : portions ++ (Call.consume n).portion?.toList = portions := List.append_nil _
    rw [hportions]
    exact ⟨h.toWellFormed.consume n, h.balanced.consume n, h.committed_eq, h.holding_mem⟩
  · have hexchanged := Pool.exchanged_of_exchange hex
    have hbalanced :=
      h.balanced.exchanged h.toWellFormed hexchanged (Pool.bounds_of_exchange hex).1
    rw [hportion]
    constructor
    · exact hexchanged.wellFormed h.toWellFormed
    · simpa only [Ledger.record, hportion, hfreed, Option.getD_some, Nat.add_zero] using hbalanced
    · simp [Ledger.record, hportion, h.committed_eq]
    · intro slot
      simp only [Ledger.record, hportion, Option.getD_some, Option.toList_some]
      rw [Backlog.endings_concat, Nat.zero_add, ← h.committed_eq, ← List.cons_append]
      rcases enter_eq_or ledger.holding _ (call.events ledger.pool) slot with hslot | hslot
      · exact List.mem_append_right _ (List.mem_singleton.2 hslot)
      · rw [hslot]
        exact List.mem_append_left _ (h.holding_mem slot)

/-- What a block holds that may be claimed was consumed. -/
theorem Sound.consumed_of_reusable? (h : ledger.Sound portions) {needed slot : Nat}
    (hslot : ledger.pool.reusable? needed = some slot) :
    (ledger.holding slot).1 = [] ∨ (ledger.holding slot).2 ≤ ledger.freed := by
  by_cases hne : (ledger.holding slot).1 = []
  · exact .inl hne
  · refine .inr (Nat.le_of_not_lt fun hlt => ?_)
    exact h.toWellFormed.notMem_of_reusable? hslot (h.balanced.mem_chain slot hne hlt)

theorem Sound.run {calls : List Call} (h : ledger.Sound portions)
    (hrun : Pool.run calls ledger.pool = .ok pool) :
    ∃ after, ledger.run calls = .ok after ∧ after.pool = pool ∧
      after.freed = ledger.freed + (calls.map Call.freed).sum ∧
      after.Sound (portions ++ calls.filterMap Call.portion?) := by
  induction calls generalizing ledger portions with
  | nil =>
    cases hrun
    exact ⟨ledger, rfl, rfl, rfl, by simpa using h⟩
  | cons call calls ih =>
    obtain ⟨next, hcall, hrest⟩ := Pool.run_cons hrun
    obtain ⟨after, hafter, hpool, hfreed, hsound⟩ := ih (h.record hcall) hrest
    refine ⟨after, ?_, hpool, ?_, ?_⟩
    · rw [Ledger.run, List.foldlM_cons, perform, hcall]
      exact hafter
    · rw [hfreed, Ledger.record, List.map_cons, List.sum_cons, Nat.add_assoc]
    · rw [Pool.filterMap_portion?_cons]
      exact hsound

end Ledger
end StreamCursor
