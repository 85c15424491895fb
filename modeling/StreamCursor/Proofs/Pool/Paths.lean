import StreamCursor.Proofs.Cursor.Refill
import StreamCursor.Proofs.Pool.Accounting

/-! The ways in which an exchange finds storage, side by side. Main statement: whichever way it
takes, it fails for the reasons that are told of it and no other, and it leaves the pool with the
same bytes still to be consumed as if the storage were new. -/

namespace StreamCursor
namespace Pool

/-- Why an exchange cannot be made, the first reason if there are several. -/
def refusal? (retired : Buffer) (carryFrom needed : Nat) : Option Fault :=
  if retired.size < carryFrom then some .carryStart
  else if needed < retired.size - carryFrom then some .carryLength
  else if maxCapacity < needed then some .capacity
  else none

/-- The pool after the bytes before `carryFrom` were put into a block of their own, whatever storage
there may be. -/
def allocating (pool : Pool) (retired : Buffer) (carryFrom : Nat) : Pool :=
  pool.grown.retire pool.blocks.size retired carryFrom

variable {pool after : Pool} {retired fresh : Buffer} {carryFrom needed bound : Nat}
  {events : List Event} {fault : Fault}

theorem Call.perform_capacity_le {call : Call}
    (hblocks : ∀ slot, (pool.bufferAt slot).capacity ≤ bound)
    (hretired : ∀ retired ∈ call.retired?, retired.capacity ≤ bound)
    (hcall : call.perform pool = .ok after) (slot : Nat) :
    (after.bufferAt slot).capacity ≤ bound := by
  obtain ⟨n, rfl, rfl⟩ | ⟨retired, carryFrom, needed, fresh, hex, hmem, -⟩ := perform_cases hcall
  · rw [bufferAt_consume]
    exact hblocks slot
  · exact (exchanged_of_exchange hex).capacity_le_of_le hblocks (hretired retired hmem) slot

/-- No block is larger than the buffers that were retired. -/
theorem run_capacity_le {calls : List Call}
    (hblocks : ∀ slot, (pool.bufferAt slot).capacity ≤ bound)
    (hcalls : ∀ call ∈ calls, ∀ retired ∈ call.retired?, retired.capacity ≤ bound)
    (hrun : run calls pool = .ok after) (slot : Nat) : (after.bufferAt slot).capacity ≤ bound := by
  induction calls generalizing pool with
  | nil =>
    cases hrun
    exact hblocks slot
  | cons call calls ih =>
    rw [List.forall_mem_cons] at hcalls
    obtain ⟨next, hcall, hrest⟩ := run_cons hrun
    exact ih (Call.perform_capacity_le hblocks hcalls.1 hcall) hcalls.2 hrest

/-- Storage that is too large for any buffer is not lying around either. -/
theorem exchange_of_too_large (hblocks : ∀ slot, (pool.bufferAt slot).capacity ≤ maxCapacity)
    (hretired : retired.capacity ≤ maxCapacity) (hstart : carryFrom ≤ retired.size)
    (hlength : retired.size - carryFrom ≤ needed) (hmax : maxCapacity < needed) :
    (pool.exchange retired carryFrom needed).2 = .error .capacity := by
  have hnone : pool.reusable? needed = none := by
    cases hreuse : pool.reusable? needed with
    | none => rfl
    | some slot =>
      have hfits := (reusable?_some hreuse).2.2
      have hle := hblocks slot
      omega
  have hplace : ¬(pool.chain.isEmpty ∧ carryFrom ≤ pool.consumed ∧ needed ≤ retired.capacity) := by
    omega
  rw [exchange_eq hstart (by rwa [List.length_drop]), storageFor, hnone]
  simp only [if_neg hplace, if_pos hmax]

theorem refusal?_eq_none_iff : refusal? retired carryFrom needed = none ↔
    carryFrom ≤ retired.size ∧ retired.size - carryFrom ≤ needed ∧ needed ≤ maxCapacity := by
  grind [refusal?]

theorem exchange_of_refusal?_none (pool : Pool) (h : refusal? retired carryFrom needed = none) :
    ∃ events fresh after,
      pool.exchange retired carryFrom needed = (events, .ok (fresh, after)) := by
  obtain ⟨hstart, hlength, hmax⟩ := refusal?_eq_none_iff.1 h
  exact exchange_succeeds hstart (by rwa [List.length_drop]) hmax

/-- An exchange fails for the first reason there is against it, and only then. -/
theorem exchange_eq_error_iff (hblocks : ∀ slot, (pool.bufferAt slot).capacity ≤ maxCapacity)
    (hretired : retired.capacity ≤ maxCapacity) :
    (pool.exchange retired carryFrom needed).2 = .error fault ↔
      refusal? retired carryFrom needed = some fault := by
  by_cases hstart : retired.size < carryFrom
  · have hex : pool.exchange retired carryFrom needed = ([], .error .carryStart) := if_pos hstart
    have href : refusal? retired carryFrom needed = some .carryStart := if_pos hstart
    simp [hex, href]
  by_cases hlength : needed < retired.size - carryFrom
  · have hcarried : needed < (retired.bytes.drop carryFrom).length := by rwa [List.length_drop]
    have hex : pool.exchange retired carryFrom needed = ([], .error .carryLength) :=
      (if_neg hstart).trans (if_pos hcarried)
    have href : refusal? retired carryFrom needed = some .carryLength :=
      (if_neg hstart).trans (if_pos hlength)
    simp [hex, href]
  by_cases hmax : maxCapacity < needed
  · have hex := exchange_of_too_large hblocks hretired (Nat.le_of_not_lt hstart)
      (Nat.le_of_not_lt hlength) hmax
    have href : refusal? retired carryFrom needed = some .capacity := by
      simp [refusal?, hstart, hlength, hmax]
    simp [hex, href]
  · have href : refusal? retired carryFrom needed = none := by
      simp [refusal?, hstart, hlength, hmax]
    obtain ⟨events, fresh, after, hex⟩ := exchange_of_refusal?_none pool href
    simp [hex, href]

/-- What is in flight and what is unconsumed can be told from the backlog. -/
theorem occupancy_of_backlog_eq (h : pool.backlog = after.backlog) :
    pool.occupancy.inFlight = after.occupancy.inFlight ∧
      pool.occupancy.unconsumed = after.occupancy.unconsumed := by
  have hflight : ∀ pool : Pool, pool.occupancy.inFlight = pool.backlog.segments.length := by
    simp [occupancy, backlog, segments]
  have hunconsumed : ∀ pool : Pool, pool.occupancy.unconsumed =
      if pool.backlog.segments.isEmpty then 0
      else (pool.backlog.segments.map List.length).sum - pool.backlog.consumed := by
    simp [occupancy, backlog, segments, Function.comp_def, Buffer.size]
  exact ⟨by rw [hflight, hflight, h], by rw [hunconsumed, hunconsumed, h]⟩

/-- An exchange leaves what is to be consumed as it would be left if the storage were new. -/
theorem Exchanged.backlog_eq_allocating
    (h : Exchanged pool retired carryFrom needed events fresh after) (hw : pool.WellFormed)
    (hstart : carryFrom ≤ retired.size) :
    after.backlog = (pool.allocating retired carryFrom).backlog := by
  rw [h.backlog_eq hw hstart, allocating, backlog_retire hw.size_notMem_grown size_lt_grown,
    hw.segments_grown]
  rfl

/-- After any calls that retired real buffers, an exchange fails for the first reason there is
against it, or it carries over just the bytes it should, into a buffer that is large enough. What is
then left to be consumed is block for block what would be left if a new buffer had been taken. -/
theorem run_exchanges_alike {calls : List Call} {pool : Pool}
    (hcalls : ∀ call ∈ calls, ∀ retired ∈ call.retired?, retired.capacity ≤ maxCapacity)
    (hrun : run calls = .ok pool) {retired : Buffer} (hretired : retired.capacity ≤ maxCapacity)
    (carryFrom needed : Nat) :
    (∀ fault, (pool.exchange retired carryFrom needed).2 = .error fault ↔
      refusal? retired carryFrom needed = some fault) ∧
    (refusal? retired carryFrom needed = none → ∃ events fresh after,
      pool.exchange retired carryFrom needed = (events, .ok (fresh, after)) ∧
      fresh.bytes = retired.bytes.drop carryFrom ∧ needed ≤ fresh.capacity ∧
      let plain := pool.allocating retired carryFrom
      after.retiredBytes.drop after.consumed = plain.retiredBytes.drop plain.consumed ∧
      after.segments = plain.segments ∧ after.consumed = plain.consumed ∧
      after.occupancy.inFlight = plain.occupancy.inFlight ∧
      after.occupancy.unconsumed = plain.occupancy.unconsumed) := by
  have haccounts := accounts_run accounts_empty hrun
  have hblocks : ∀ slot, (pool.bufferAt slot).capacity ≤ maxCapacity :=
    run_capacity_le (fun slot => Nat.zero_le _) hcalls hrun
  refine ⟨fun fault => exchange_eq_error_iff hblocks hretired, fun hnone => ?_⟩
  obtain ⟨events, fresh, after, hex⟩ := exchange_of_refusal?_none pool hnone
  have hexchanged := exchanged_of_exchange hex
  have hbacklog :=
    hexchanged.backlog_eq_allocating haccounts.toWellFormed (bounds_of_exchange hex).1
  have hsegments : after.segments = (pool.allocating retired carryFrom).segments :=
    congrArg Backlog.segments hbacklog
  have hconsumed : after.consumed = (pool.allocating retired carryFrom).consumed :=
    congrArg Backlog.consumed hbacklog
  obtain ⟨hflight, hunconsumed⟩ := occupancy_of_backlog_eq hbacklog
  have hrest : after.segments.flatten.drop after.consumed =
      (pool.allocating retired carryFrom).segments.flatten.drop
        (pool.allocating retired carryFrom).consumed := by
    rw [hsegments, hconsumed]
  exact ⟨events, fresh, after, hex, hexchanged.bytes_eq, hexchanged.needed_le, hrest, hsegments,
    hconsumed, hflight, hunconsumed⟩

/-- Three bytes too many were reported, so that a buffer of which two bytes are committed serves
again as it is. A new one would have left the pool with one byte in excess as well. -/
theorem run_exchanges_alike_in_place :
    ∃ pool events fresh after, run [.exchange ⟨[1, 2, 3], 4⟩ 2 4, .consume 5] = .ok pool ∧
      pool.exchange ⟨[3, 4, 5], 8⟩ 2 8 = (events, .ok (fresh, after)) ∧
      events = [.reusedInPlace] ∧ fresh.bytes = [5] ∧
      after.segments = (pool.allocating ⟨[3, 4, 5], 8⟩ 2).segments ∧ after.segments = [] ∧
      after.consumed = (pool.allocating ⟨[3, 4, 5], 8⟩ 2).consumed ∧ after.consumed = 1 ∧
      after.blocks.size = 1 ∧ (pool.allocating ⟨[3, 4, 5], 8⟩ 2).blocks.size = 2 ∧
      (pool.exchange ⟨[3, 4, 5], 8⟩ 4 0).2 = .error .carryStart := by
  have hcalls : ∀ call ∈ [Call.exchange ⟨[1, 2, 3], 4⟩ 2 4, .consume 5],
      ∀ retired ∈ call.retired?, retired.capacity ≤ maxCapacity := by decide
  obtain ⟨pool, hrun⟩ : ∃ pool, run [.exchange ⟨[1, 2, 3], 4⟩ 2 4, .consume 5] = .ok pool :=
    ⟨_, rfl⟩
  have hretired : (⟨[3, 4, 5], 8⟩ : Buffer).capacity ≤ maxCapacity := by decide
  obtain ⟨-, hsucceeds⟩ := run_exchanges_alike hcalls hrun hretired 2 8
  obtain ⟨hfails, -⟩ := run_exchanges_alike hcalls hrun hretired 4 0
  obtain ⟨events, fresh, after, hex, hbytes, -, -, hsegments, hconsumed, -⟩ := hsucceeds rfl
  have hstart := (hfails .carryStart).2 rfl
  cases hrun
  cases hex
  exact ⟨_, _, _, _, rfl, rfl, rfl, hbytes, hsegments, rfl, hconsumed, rfl, rfl, rfl, hstart⟩

end Pool
end StreamCursor
