import StreamCursor.Proofs.Pool.Exchange

/-! What a pool knows of its history: the bytes committed to it, and how many of them were
consumed. Main statement: after any calls, the chain holds exactly the committed bytes that were
not consumed, whichever storage the exchanges found. -/

namespace StreamCursor
namespace Pool

/-- The pool is well formed and stands where `portions` of bytes, committed in this order, and
`freed` consumed bytes leave it. Empty portions leave no trace. -/
structure Accounts (pool : Pool) (portions : List Bytes) (freed : Nat) : Prop
    extends WellFormed pool where
  backlog_eq : pool.backlog = Backlog.settle (portions.filter (· ≠ [])) freed

theorem accounts_empty : Accounts {} [] 0 := ⟨wellFormed_empty, rfl⟩

namespace Accounts

variable {pool after : Pool} {portions : List Bytes} {freed : Nat}

theorem consume (h : pool.Accounts portions freed) (n : Nat) :
    (pool.consume n).Accounts portions (freed + n) := by
  constructor
  · exact h.toWellFormed.consume n
  · have hafter : (pool.consume n).backlog =
        Backlog.settle pool.backlog.segments (pool.backlog.consumed + n) := backlog_consume ..
    have hsettle := Backlog.settle_settle_append (portions.filter (· ≠ [])) [] freed n
    rw [List.append_nil, List.append_nil] at hsettle
    rw [hafter, h.backlog_eq, hsettle]

theorem exchanged (h : pool.Accounts portions freed) {retired fresh : Buffer}
    {carryFrom needed : Nat} {events : List Event}
    (he : Exchanged pool retired carryFrom needed events fresh after)
    (hstart : carryFrom ≤ retired.size) :
    after.Accounts (portions ++ [retired.bytes.take carryFrom]) freed := by
  constructor
  · exact he.wellFormed h.toWellFormed
  · have hafter : after.backlog =
        Backlog.settle (pool.backlog.segments ++ segmentOf (retired.bytes.take carryFrom))
          pool.backlog.consumed := he.backlog_eq h.toWellFormed hstart
    have hsettle := Backlog.settle_settle_append (portions.filter (· ≠ []))
      (segmentOf (retired.bytes.take carryFrom)) freed 0
    rw [Nat.add_zero, Nat.add_zero] at hsettle
    rw [hafter, h.backlog_eq, hsettle, filter_append_segmentOf]

/-- What the chain holds beyond the bytes consumed of it is what was not consumed at all. -/
theorem drop_retiredBytes (h : pool.Accounts portions freed) :
    pool.retiredBytes.drop pool.consumed = portions.flatten.drop freed := by
  have hdrop := Backlog.drop_settle (portions.filter (· ≠ [])) freed
  rw [← h.backlog_eq, Backlog.flatten_filter_nonempty] at hdrop
  exact hdrop

theorem idle (h : pool.Accounts portions freed) (hle : portions.flatten.length ≤ freed) :
    pool.chain = [] ∧ pool.consumed = freed - portions.flatten.length := by
  rw [← Backlog.flatten_filter_nonempty] at hle ⊢
  have hb := h.backlog_eq.trans (Backlog.settle_of_length_le hle)
  exact ⟨List.map_eq_nil_iff.1 (congrArg Backlog.segments hb), congrArg Backlog.consumed hb⟩

/-- The oldest block on the chain was not consumed to its end. -/
theorem consumed_lt (h : pool.Accounts portions freed) {slot : Nat} {chain : List Nat}
    (hchain : pool.chain = slot :: chain) : pool.consumed < (pool.bufferAt slot).size := by
  have hsegments : pool.backlog.segments =
      (slot :: chain).map fun slot => (pool.bufferAt slot).bytes := by
    rw [← hchain]
    rfl
  have hlt : pool.backlog.consumed < (pool.bufferAt slot).bytes.length := by
    rw [h.backlog_eq] at hsegments ⊢
    exact Backlog.consumed_settle_lt hsegments
  exact hlt

/-- The blocks on the chain are the portions that end behind the bytes consumed. -/
theorem segments_eq (h : pool.Accounts portions freed) :
    pool.segments =
      ((Backlog.endings 0 portions).filter fun e => e.1 ≠ [] ∧ freed < e.2).map (·.1) := by
  have hs := congrArg Backlog.segments h.backlog_eq
  rw [Backlog.segments_settle 0, Backlog.endings_filter_nonempty, List.filter_filter] at hs
  change pool.segments = _ at hs
  simpa [Bool.and_comm] using hs

theorem unconsumed_eq (h : pool.Accounts portions freed) :
    pool.occupancy.unconsumed = portions.flatten.length - freed := by
  have hlen := congrArg List.length h.drop_retiredBytes
  rw [List.length_drop, List.length_drop] at hlen
  have hsum : (pool.chain.map fun slot => (pool.bufferAt slot).size).sum =
      pool.retiredBytes.length := by
    simp [retiredBytes, List.length_flatten, Buffer.size, Function.comp_def]
  simp only [occupancy, hsum]
  split
  next hchain =>
    have hnil : pool.retiredBytes = [] := by
      simp [retiredBytes, List.isEmpty_iff.1 hchain]
    rw [hnil, List.length_nil, Nat.zero_sub] at hlen
    exact hlen
  · exact hlen

theorem inFlight_eq (h : pool.Accounts portions freed) :
    pool.occupancy.inFlight =
      (Backlog.endings 0 portions).countP fun e => e.1 ≠ [] ∧ freed < e.2 := by
  have hlen := congrArg List.length h.segments_eq
  rw [segments, List.length_map, List.length_map] at hlen
  rw [occupancy, hlen, List.countP_eq_length_filter]

end Accounts

/-- What a caller asks of a pool. -/
inductive Call where
  | swap (retired : Buffer) (needed : Nat)
  | exchange (retired : Buffer) (carryFrom needed : Nat)
  | consume (n : Nat)
  deriving DecidableEq

namespace Call

def perform (pool : Pool) : Call → Except Fault Pool
  | swap retired needed => (pool.swap retired needed).2.map (·.2)
  | exchange retired carryFrom needed => (pool.exchange retired carryFrom needed).2.map (·.2)
  | consume n => .ok (pool.consume n)

/-- The bytes that a call commits to the pool. -/
def portion? : Call → Option Bytes
  | swap retired _ => some retired.bytes
  | exchange retired carryFrom _ => some (retired.bytes.take carryFrom)
  | consume _ => none

/-- How many bytes a call reports consumed. -/
def freed : Call → Nat
  | consume n => n
  | _ => 0

/-- The buffer that a call retires. -/
def retired? : Call → Option Buffer
  | swap retired _ | exchange retired _ _ => some retired
  | consume _ => none

/-- What a call reports. -/
def events (pool : Pool) : Call → List Event
  | swap retired needed => (pool.swap retired needed).1
  | exchange retired carryFrom needed => (pool.exchange retired carryFrom needed).1
  | consume _ => []

variable {pool after : Pool} {call : Call}

theorem exchange_of_map_ok {retired : Buffer} {carryFrom needed : Nat}
    (hcall : (pool.exchange retired carryFrom needed).2.map (·.2) = .ok after) :
    ∃ fresh, pool.exchange retired carryFrom needed =
      ((pool.exchange retired carryFrom needed).1, .ok (fresh, after)) := by
  rcases hex : pool.exchange retired carryFrom needed with ⟨events, fault | ⟨fresh, result⟩⟩
  · rw [hex] at hcall
    cases hcall
  · rw [hex] at hcall
    cases hcall
    exact ⟨fresh, rfl⟩

/-- A call that succeeds reports bytes consumed, or it exchanges a buffer. -/
theorem perform_cases (hcall : call.perform pool = .ok after) :
    (∃ n, call = .consume n ∧ after = pool.consume n) ∨
    ∃ retired carryFrom needed fresh,
      pool.exchange retired carryFrom needed = (call.events pool, .ok (fresh, after)) ∧
      call.retired? = some retired ∧ call.portion? = some (retired.bytes.take carryFrom) ∧
      call.freed = 0 := by
  cases call with
  | swap retired needed =>
    obtain ⟨fresh, hex⟩ := exchange_of_map_ok hcall
    have hall : retired.bytes.take retired.size = retired.bytes := List.take_length
    exact .inr ⟨retired, retired.size, needed, fresh, hex, rfl, congrArg some hall.symm, rfl⟩
  | exchange retired carryFrom needed =>
    obtain ⟨fresh, hex⟩ := exchange_of_map_ok hcall
    exact .inr ⟨retired, carryFrom, needed, fresh, hex, rfl, rfl, rfl⟩
  | consume n =>
    cases hcall
    exact .inl ⟨n, rfl, rfl⟩

theorem perform_accounts {portions : List Bytes} {freed : Nat} (h : pool.Accounts portions freed)
    (hcall : call.perform pool = .ok after) :
    after.Accounts (portions ++ call.portion?.toList) (freed + call.freed) := by
  obtain ⟨n, rfl, rfl⟩ | ⟨retired, carryFrom, needed, fresh, hex, -, hportion, hfreed⟩ :=
    perform_cases hcall
  · simpa [portion?, Call.freed] using h.consume n
  · rw [hportion, hfreed]
    exact h.exchanged (exchanged_of_exchange hex) (bounds_of_exchange hex).1

end Call

/-- The pool after the calls, if none of them fails. -/
def run (calls : List Call) (pool : Pool := {}) : Except Fault Pool :=
  calls.foldlM Call.perform pool

theorem run_cons {pool after : Pool} {call : Call} {calls : List Call}
    (hrun : run (call :: calls) pool = .ok after) :
    ∃ next, call.perform pool = .ok next ∧ run calls next = .ok after := by
  rw [run, List.foldlM_cons] at hrun
  cases hcall : call.perform pool with
  | error fault =>
    rw [hcall] at hrun
    cases hrun
  | ok next =>
    rw [hcall] at hrun
    exact ⟨next, rfl, hrun⟩

theorem filterMap_portion?_cons (portions : List Bytes) (call : Call) (calls : List Call) :
    portions ++ (call :: calls).filterMap Call.portion? =
      portions ++ call.portion?.toList ++ calls.filterMap Call.portion? := by
  cases hp : call.portion? with
  | none => simp [hp]
  | some portion => simp [hp]

theorem accounts_run {pool after : Pool} {portions : List Bytes} {freed : Nat}
    {calls : List Call} (h : pool.Accounts portions freed) (hrun : run calls pool = .ok after) :
    after.Accounts (portions ++ calls.filterMap Call.portion?)
      (freed + (calls.map Call.freed).sum) := by
  induction calls generalizing pool portions freed with
  | nil =>
    cases hrun
    simpa using h
  | cons call calls ih =>
    obtain ⟨next, hcall, hrest⟩ := run_cons hrun
    rw [filterMap_portion?_cons, List.map_cons, List.sum_cons, ← Nat.add_assoc]
    exact ih (Call.perform_accounts h hcall) hrest

/-- After any calls that succeed, consumption in advance and beyond what was committed included,
the pool holds what was committed and not consumed, in order and once. A block stays on the chain
until consumption reaches the offset at which its bytes end. -/
theorem run_holds_unconsumed (calls : List Call) {pool : Pool} (hrun : run calls = .ok pool) :
    let portions := calls.filterMap Call.portion?
    let freed := (calls.map Call.freed).sum
    (freed < portions.flatten.length →
      pool.retiredBytes.drop pool.consumed = portions.flatten.drop freed) ∧
    (portions.flatten.length ≤ freed →
      pool.chain = [] ∧ pool.consumed = freed - portions.flatten.length) ∧
    pool.occupancy.unconsumed = portions.flatten.length - freed ∧
    pool.occupancy.inFlight =
      (Backlog.endings 0 portions).countP (fun e => e.1 ≠ [] ∧ freed < e.2) ∧
    pool.chain.map (fun slot => (pool.bufferAt slot).bytes) =
      ((Backlog.endings 0 portions).filter fun e => e.1 ≠ [] ∧ freed < e.2).map (·.1) := by
  have h := accounts_run accounts_empty hrun
  rw [List.nil_append, Nat.zero_add] at h
  exact ⟨fun _ => h.drop_retiredBytes, h.idle, h.unconsumed_eq, h.inFlight_eq, h.segments_eq⟩

/-- Five bytes are reported after two were committed, so that the next two are exchanged in place
and only the sixth byte is left in the block that keeps the last two. -/
theorem run_holds_unconsumed_ahead :
    ∃ pool, run [.exchange ⟨[1, 2, 3], 4⟩ 2 4, .consume 5, .exchange ⟨[3, 4, 5], 8⟩ 2 8,
        .swap ⟨[5, 6], 8⟩ 8] = .ok pool ∧
      pool.blocks.size = 2 ∧ pool.retiredBytes.drop pool.consumed = [6] ∧
      pool.occupancy.unconsumed = 1 ∧ pool.occupancy.inFlight = 1 := by
  refine ⟨_, rfl, rfl, ?_⟩
  obtain ⟨hbytes, -, hunconsumed, hflight, -⟩ :=
    run_holds_unconsumed [.exchange ⟨[1, 2, 3], 4⟩ 2 4, .consume 5, .exchange ⟨[3, 4, 5], 8⟩ 2 8,
      .swap ⟨[5, 6], 8⟩ 8] rfl
  exact ⟨hbytes (by decide), hunconsumed, hflight⟩

end Pool
end StreamCursor
