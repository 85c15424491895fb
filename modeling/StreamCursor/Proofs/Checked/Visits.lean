import StreamCursor.Proofs.Checked.Agreement

/-! The reads that a peek makes, each with the registers as they are when it is made. Main
statement: a peek that comes to a result has made these reads one after another, each while the byte
was missing and the stream had not ended, and it has done nothing else. -/

namespace StreamCursor

/-- A read that is about to be made. -/
structure Visit (σ : Type) where
  /-- Whether the buffer was exchanged for this read. -/
  fresh : Bool
  machine : Registers σ

namespace Registers

variable {σ : Type}

/-- How many bytes of the stream have arrived. -/
def arrived (m : Registers σ) : Nat := m.base + m.stop

end Registers

namespace Visit

variable {σ : Type}

/-- What the source is handed: all places of the buffer in use from `stop` on. -/
def slot (v : Visit σ) : Slot := v.machine.grown.content.drop v.machine.stop

variable [Source σ]

def reply (v : Visit σ) : Reply := (Source.read v.machine.source v.slot).1

/-- The bytes that the read brings. -/
def delivered (v : Visit σ) : Bytes := v.reply.delivered v.slot

/-- The registers when the read is over. -/
def after (v : Visit σ) : Registers σ :=
  { v.machine.grown with
    source := (Source.read v.machine.source v.slot).2
    content := v.machine.grown.content.splice v.machine.stop (v.reply.leaves v.slot)
    stop := v.machine.stop + v.delivered.length
    ended := v.reply.ending v.slot }

theorem arrived_after (v : Visit σ) :
    v.after.arrived = v.machine.arrived + v.delivered.length :=
  (Nat.add_assoc ..).symm

end Visit

namespace Registers

open Checked

variable {σ : Type}

/-- The read that comes next if the buffer has to have the place `i`. -/
def ready (m : Registers σ) (i : Nat) : Checked (Visit σ) := do
  if i < m.capacity then return { fresh := false, machine := m }
  else
    let reach ← sub i m.start
    return { fresh := true, machine := ← m.exchange reach }

/-- All that holds of a read that the machine makes next. -/
structure Prepares (m : Registers σ) (v : Visit σ) : Prop where
  ordered : v.machine.Ordered
  room : v.machine.stop < v.machine.capacity
  source_eq : v.machine.source = m.source
  ended_eq : v.machine.ended = m.ended
  offset_eq : v.machine.offset = m.offset
  arrived_eq : v.machine.arrived = m.arrived
  kept : v.fresh = false → v.machine = m
  /-- A buffer that was exchanged has nothing behind `stop`. -/
  cleared : v.fresh = true → v.machine.content.front.length ≤ v.machine.stop

theorem Ordered.size_grown {m : Registers σ} (h : m.Ordered) : m.grown.content.size = m.capacity :=
  Nat.max_eq_right h.size_le

theorem Prepares.size_slot {m : Registers σ} {v : Visit σ} (h : m.Prepares v) :
    v.slot.size = v.machine.capacity - v.machine.stop :=
  congrArg (· - v.machine.stop) h.ordered.size_grown

variable [Source σ]

theorem refill_eq (m : Registers σ) (i : Nat) :
    m.refill i = m.ready i >>= fun v => v.machine.read := by
  unfold refill ready
  split
  · rfl
  · cases sub i m.start with
    | error breach => rfl
    | ok reach =>
      change (m.exchange reach >>= read) =
        ((m.exchange reach >>= fun next => .ok ⟨true, next⟩) >>= fun v : Visit σ => v.machine.read)
      cases m.exchange reach <;> rfl

theorem Prepares.read_eq {m : Registers σ} {v : Visit σ} (h : m.Prepares v)
    (hopen : m.ended = none) : v.machine.read = .ok v.after := by
  have hsize := h.ordered.size_grown
  have hroom := h.room
  have hspare : v.machine.grown.spare = .ok v.slot := by
    have hstop : v.machine.grown.stop ≤ v.machine.grown.content.size := by
      change v.machine.stop ≤ _
      omega
    rw [spare, require_eq hstop]
    rfl
  rw [read, hspare]
  refine takeIn_eq (m := { v.machine.grown with source := (Source.read v.machine.source v.slot).2 })
    v.slot (h.ended_eq.trans hopen) ?_ ?_ v.reply (v.reply.leaves v.slot)
  · change v.machine.stop + v.slot.size = v.machine.grown.content.size
    rw [h.size_slot, hsize]
    omega
  · exact Nat.le_trans (Nat.le_of_eq hsize) h.ordered.capacity_le

/-- The reads that `fill` makes, in order. -/
def fetches (reach : Nat) : (turns : Nat) → Registers σ → List (Visit σ)
  | 0, _ => []
  | turns + 1, m =>
      if m.start + reach < m.stop ∨ m.ended.isSome then []
      else
        match m.ready (m.start + reach) with
        | .error _ => []
        | .ok v =>
            v :: match v.machine.read with
              | .error _ => []
              | .ok next => fetches reach turns next

theorem fetches_of_done {m : Registers σ} {reach turns : Nat}
    (h : m.start + reach < m.stop ∨ m.ended.isSome) : m.fetches reach turns = [] := by
  cases turns with
  | zero => rfl
  | succ turns => exact if_pos h

theorem fetches_succ {m next : Registers σ} {v : Visit σ} {reach turns : Nat}
    (h : ¬(m.start + reach < m.stop ∨ m.ended.isSome))
    (hready : m.ready (m.start + reach) = .ok v) (hread : v.machine.read = .ok next) :
    m.fetches reach (turns + 1) = v :: next.fetches reach turns := by
  rw [fetches, if_neg h, hready]
  simp only [hread]

/-- The reads that `peek` makes, in order. -/
def visits (m : Registers σ) (k : Nat) : List (Visit σ) :=
  let i := m.position + k
  if maxCapacity ≤ i ∨ i < m.stop then []
  else m.fetches (i - m.start) (i - m.start + 2)

/-- Reads that are made one after another, as long as fewer bytes than `target` and one more have
arrived and the stream has not ended. -/
inductive Fetched (target : Nat) : Registers σ → List (Visit σ) → Registers σ → Prop
  | done (m : Registers σ) : Fetched target m [] m
  | more {m later : Registers σ} {v : Visit σ} {visits : List (Visit σ)} (hopen : m.ended = none)
      (hmissing : m.arrived ≤ target) (hready : m.Prepares v)
      (h : Fetched target v.after visits later) : Fetched target m (v :: visits) later

namespace Fetched

variable {target : Nat} {m later : Registers σ} {visits : List (Visit σ)}

/-- Nothing is read for a byte that has arrived or behind the end. -/
theorem of_done (h : Fetched target m visits later)
    (hdone : m.ended.isSome ∨ target < m.arrived) : visits = [] ∧ later = m := by
  cases h with
  | done => exact ⟨rfl, rfl⟩
  | more hopen hmissing =>
    rcases hdone with hended | hlt
    · simp [hopen] at hended
    · omega

/-- What holds of each read. -/
theorem of_mem (h : Fetched target m visits later) :
    ∀ v ∈ visits, 0 < v.slot.size ∧ v.machine.ended = none ∧ v.machine.offset = m.offset ∧
      v.machine.arrived ≤ target := by
  induction h with
  | done => exact fun _ => nofun
  | @more m later v visits hopen hmissing hready _ ih =>
    have hsize := hready.size_slot
    have hroom := hready.room
    have hoffset : v.after.offset = m.offset := hready.offset_eq
    rw [List.forall_mem_cons]
    refine ⟨⟨by omega, hready.ended_eq.trans hopen, hready.offset_eq, ?_⟩, hoffset ▸ ih⟩
    rw [hready.arrived_eq]
    exact hmissing

/-- Each read brings a byte, or it is the last one. -/
theorem length_le (h : Fetched target m visits later) :
    visits.length ≤ target + 1 - m.arrived := by
  induction h with
  | done => exact Nat.zero_le _
  | @more m later v visits hopen hmissing hready hrest ih =>
    have harrived := v.arrived_after
    rw [hready.arrived_eq] at harrived
    rw [List.length_cons]
    by_cases hnone : v.delivered = []
    · obtain ⟨rfl, -⟩ := hrest.of_done (.inl (Reply.ending_of_delivered_nil hnone))
      rw [List.length_nil]
      omega
    · have hpos := List.length_pos_iff.2 hnone
      omega

end Fetched

/-- A source on record was read by these reads and by no others. -/
theorem Fetched.reads {τ : Type} [Source τ] {target : Nat} {m later : Registers (Recorder τ)}
    {visits : List (Visit (Recorder τ))} (h : Fetched target m visits later) :
    later.source.reads = m.source.reads ++ visits.map fun v => (v.slot, v.reply) := by
  induction h with
  | done => simp
  | @more m later v visits _ _ hready _ ih =>
    have hread : v.after.source.reads = v.machine.source.reads ++ [(v.slot, v.reply)] := rfl
    rw [ih, hread, hready.source_eq]
    simp

namespace Agrees

variable {c : Cursor σ} {m m' : Registers σ} {k turns : Nat} {b : UInt8}

theorem fields (h : m.Agrees c) :
    m.source = c.source ∧ m.ended = c.ended ∧ m.position = c.window.position ∧
      m.arrived = c.arrived := by
  obtain ⟨content, reportedTo, unreported, rfl, -⟩ := h.held
  exact ⟨rfl, rfl, rfl, rfl⟩

/-- Room for a byte that is missing can always be had, in the buffer in use or in another one. -/
theorem ready (h : m.Agrees c) (hopen : c.ended = none) (hmissing : c.window.ahead.size ≤ k)
    (hreach : c.window.position + k < maxCapacity) :
    ∃ v, m.ready (c.window.position + k) = .ok v ∧ m.Prepares v := by
  obtain ⟨content, reportedTo, unreported, rfl, hholds⟩ := h.held
  have hposition : c.window.position = c.window.start + c.window.mark := rfl
  have hstop : c.window.stop = c.window.position + c.window.ahead.size := rfl
  by_cases hfits : c.window.position + k < c.capacity
  · refine ⟨_, if_pos hfits, hholds.ordered, ?_, rfl, rfl, rfl, rfl, fun _ => rfl, nofun⟩
    change c.window.stop < c.capacity
    omega
  · obtain ⟨portions, freed, haccounts⟩ := h.healthy.accounts
    have hmark : c.window.mark + k < maxCapacity := by omega
    obtain ⟨events, pool, he, -⟩ := h.healthy.sound.exchange_eq hopen hmark
    have hcarried := hholds.carriedOver hmark pool events
    have hexchange := hholds.exchange_eq haccounts.toWellFormed hmark he
    have hkept := c.window.length_kept
    have hlt := Cursor.reach_lt_nextCapacity (h.healthy.sound.capacity_pos hopen) hmark
    have hordered := hcarried.ordered
    rw [ofCursor_carriedOver] at hexchange hordered
    refine ⟨{ fresh := true, machine := _ }, ?_, hordered, ?_, rfl, rfl, ?_, ?_, nofun, fun _ => ?_⟩
    · refine (if_neg hfits).trans ?_
      change (sub (c.window.position + k) c.window.start >>= fun _ => _) = _
      rw [sub_eq (c.window.start_le_position_add k), c.window.position_add_sub_start]
      change ((ofCursor c content reportedTo unreported).exchange (c.window.mark + k) >>=
        fun _ => _) = _
      rw [hexchange]
      rfl
    · change c.window.kept.length < Cursor.nextCapacity c.capacity (c.window.mark + k)
      omega
    · change c.base + c.window.start + c.window.mark = c.base + c.window.position
      omega
    · change c.base + c.window.start + c.window.kept.length = c.base + c.window.stop
      omega
    · exact Nat.le_refl c.window.kept.length

/-- The read that comes next leaves a machine in order, at the same place. -/
theorem after (h : m.Agrees c) (hopen : c.ended = none) (hmissing : c.window.ahead.size ≤ k)
    (hreach : c.window.position + k < maxCapacity) {v : Visit σ}
    (hready : m.ready (c.window.position + k) = .ok v) (hprepares : m.Prepares v) :
    ∃ next, v.after.Agrees next ∧ c.SamePlace next := by
  obtain ⟨stream, freed, hfaithful⟩ := h.healthy
  obtain ⟨next, part, hrefill, hnext, -⟩ := hfaithful.refill hopen hmissing hreach
  refine ⟨next, ⟨⟨_, _, hnext.faithful⟩, ?_⟩, hnext.samePlace⟩
  obtain ⟨content, reportedTo, unreported, rfl, hholds⟩ := h.held
  obtain ⟨content', reportedTo', unreported', hstep, hheld⟩ :=
    hholds.refill h.healthy hopen hreach hrefill
  rw [refill_eq, hready] at hstep
  exact ⟨content', reportedTo', unreported',
    Except.ok.inj ((hprepares.read_eq hopen).symm.trans hstep), hheld⟩

/-- One turn of the loop makes the read that comes next and goes on from there. -/
theorem turn (h : m.Agrees c) (hopen : c.ended = none) (hmissing : c.window.ahead.size ≤ k)
    (hreach : c.window.position + k < maxCapacity) (turns : Nat) :
    ∃ v next, m.Prepares v ∧ v.after.Agrees next ∧ c.SamePlace next ∧
      m.fill (c.window.mark + k) (turns + 1) = v.after.fill (c.window.mark + k) turns ∧
      m.fetches (c.window.mark + k) (turns + 1) =
        v :: v.after.fetches (c.window.mark + k) turns := by
  obtain ⟨v, hready, hprepares⟩ := h.ready hopen hmissing hreach
  obtain ⟨next, hnext, hsame⟩ := h.after hopen hmissing hreach hready hprepares
  obtain ⟨content, reportedTo, unreported, rfl, hholds⟩ := h.held
  have hread := hprepares.read_eq hopen
  have hexhausted : ¬c.isExhausted := by simp [Cursor.isExhausted, hopen]
  refine ⟨v, next, hprepares, hnext, hsame, ?_, ?_⟩
  · rw [hholds.fill_succ hreach, if_neg (Nat.not_lt.2 hmissing), if_neg hexhausted, refill_eq,
      hready]
    change (v.machine.read >>= _) = _
    rw [hread]
    rfl
  · have hplace : c.window.position + k = c.window.start + (c.window.mark + k) := Nat.add_assoc ..
    have hstop : c.window.stop = c.window.position + c.window.ahead.size := rfl
    have hlacking : ¬(c.window.start + (c.window.mark + k) < c.window.stop ∨ c.ended.isSome) := by
      simp only [hopen, Option.isSome_none, Bool.false_eq_true, or_false]
      omega
    rw [hplace] at hready
    exact fetches_succ hlacking hready hread

theorem fetched (h : m.Agrees c) (hreach : c.window.position + k < maxCapacity)
    (hfill : m.fill (c.window.mark + k) turns = .ok (b, m')) :
    Fetched (c.offset + k) m (m.fetches (c.window.mark + k) turns) m' := by
  induction turns generalizing m c with
  | zero => cases hfill
  | succ turns ih =>
    have hstop : c.window.stop = c.window.position + c.window.ahead.size := rfl
    by_cases hdone : c.isExhausted ∨ k < c.window.ahead.size
    · obtain ⟨content, reportedTo, unreported, rfl, hholds⟩ := h.held
      cases (hholds.fill_of_done hreach turns hdone).symm.trans hfill
      have hleft : c.window.start + (c.window.mark + k) < c.window.stop ∨ c.ended.isSome :=
        hdone.symm.imp_left fun hk => by
          rw [hstop, Window.position]
          omega
      rw [fetches_of_done hleft]
      exact .done _
    · obtain ⟨hexhausted, hmissing⟩ := not_or.1 hdone
      have hopen : c.ended = none := by simpa [Cursor.isExhausted] using hexhausted
      obtain ⟨v, next, hprepares, hnext, hsame, hgoes, hfetches⟩ :=
        h.turn hopen (Nat.le_of_not_lt hmissing) hreach turns
      have hposition := hsame.position_le
      rw [hgoes, ← hsame.mark] at hfill
      have hrest := ih hnext (by omega) hfill
      rw [hsame.mark, hsame.offset] at hrest
      rw [hfetches]
      refine .more ?_ ?_ hprepares hrest
      · rw [h.fields.2.1]
        exact hopen
      · rw [h.fields.2.2.2]
        simp only [Cursor.arrived, Cursor.offset]
        omega

/-- A peek makes these reads one after another, and it does nothing else. -/
theorem visited (h : m.Agrees c) (hpeek : m.peek k = .ok (b, m')) :
    Fetched (m.offset + k) m (m.visits k) m' := by
  rw [h.offsets.1]
  obtain ⟨content, reportedTo, unreported, rfl, hholds⟩ := h.held
  have hvisits : (ofCursor c content reportedTo unreported).visits k =
      if maxCapacity ≤ c.window.position + k ∨ c.window.position + k < c.window.stop then []
      else (ofCursor c content reportedTo unreported).fetches (c.window.mark + k)
        (c.window.mark + k + 2) := by
    unfold visits
    rw [← c.window.position_add_sub_start]
    rfl
  have hstop : c.window.stop = c.window.position + c.window.ahead.size := rfl
  by_cases hbeyond : maxCapacity ≤ c.window.position + k
  · cases (peek_of_beyond hbeyond).symm.trans hpeek
    rw [hvisits, if_pos (.inl hbeyond)]
    exact .done _
  · have hreach := Nat.lt_of_not_le hbeyond
    by_cases hk : k < c.window.ahead.size
    · cases (hholds.peek_of_lt hreach hk).symm.trans hpeek
      rw [hvisits, if_pos (.inr (by omega))]
      exact .done _
    · rw [peek_of_missing hreach (Nat.le_of_not_lt hk)] at hpeek
      rw [hvisits, if_neg (by omega)]
      exact h.fetched hreach hpeek

end Agrees
end Registers
end StreamCursor
