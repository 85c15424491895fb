import StreamCursor.Event
import StreamCursor.Fault

/-! What a journal tells of the exchanges of a buffer: how many there were, how many bytes were
carried by then, and how many delivered, how much storage was obtained, and which exchange is the
last. -/

namespace StreamCursor

namespace Event

/-- How many bytes the event takes to the next buffer. -/
def carried : Event → Nat
  | swapping _ carried => carried
  | _ => 0

/-- How many bytes of the stream the event brings. -/
def brought : Event → Nat
  | adopted count | delivered count => count
  | _ => 0

/-- The capacity of the buffer that the event obtains. -/
def obtained : Event → Nat
  | allocated needed _ => needed
  | _ => 0

def isSwapping : Event → Bool
  | swapping .. => true
  | _ => false

/-- Whether the event is reported by a read, or before it. -/
def isOfRead : Event → Bool
  | toppingUp .. | delivered _ | ended _ | failed .. => true
  | _ => false

/-- Whether the event belongs to an exchange, as the cursor reports it. -/
def isExchange : Event → Bool
  | growing .. | swapping .. => true
  | _ => false

theorem carried_of_not_isExchange {e : Event} (h : e.isExchange = false) : e.carried = 0 := by
  cases e <;> simp_all [isExchange, carried]

theorem isSwapping_of_not_isExchange {e : Event} (h : e.isExchange = false) :
    e.isSwapping = false := by
  cases e <;> simp_all [isExchange, isSwapping]

theorem isOfRead_quiet {e : Event} (h : e.isOfRead = true) :
    e.isExchange = false ∧ e.obtained = 0 := by
  cases e <;> simp_all [isExchange, isOfRead, obtained]

theorem isOfPool_quiet {e : Event} (h : e.isOfPool = true) :
    e.isExchange = false ∧ e.brought = 0 := by
  cases e <;> simp_all [isExchange, isOfPool, brought]

end Event

/-- How many bytes all exchanges together took to the next buffer. -/
def carriedBytes (events : List Event) : Nat := (events.map Event.carried).sum

/-- How many bytes of the stream were adopted or delivered. -/
def deliveredBytes (events : List Event) : Nat := (events.map Event.brought).sum

/-- The capacities of all buffers that were obtained together. -/
def obtainedBytes (events : List Event) : Nat := (events.map Event.obtained).sum

/-- How many times the buffer was exchanged. -/
def exchanges (events : List Event) : Nat := events.countP Event.isSwapping

@[simp] theorem carriedBytes_cons (e : Event) (events : List Event) :
    carriedBytes (e :: events) = e.carried + carriedBytes events := by
  simp [carriedBytes]

@[simp] theorem deliveredBytes_cons (e : Event) (events : List Event) :
    deliveredBytes (e :: events) = e.brought + deliveredBytes events := by
  simp [deliveredBytes]

@[simp] theorem carriedBytes_append (newer older : List Event) :
    carriedBytes (newer ++ older) = carriedBytes newer + carriedBytes older := by
  simp [carriedBytes]

@[simp] theorem deliveredBytes_append (newer older : List Event) :
    deliveredBytes (newer ++ older) = deliveredBytes newer + deliveredBytes older := by
  simp [deliveredBytes]

@[simp] theorem obtainedBytes_cons (e : Event) (events : List Event) :
    obtainedBytes (e :: events) = e.obtained + obtainedBytes events := by
  simp [obtainedBytes]

@[simp] theorem obtainedBytes_append (newer older : List Event) :
    obtainedBytes (newer ++ older) = obtainedBytes newer + obtainedBytes older := by
  simp [obtainedBytes]

@[simp] theorem obtainedBytes_reverse (events : List Event) :
    obtainedBytes events.reverse = obtainedBytes events := by
  simp [obtainedBytes]

@[simp] theorem exchanges_cons (e : Event) (events : List Event) :
    exchanges (e :: events) = exchanges events + e.isSwapping.toNat := by
  cases h : e.isSwapping <;> simp [exchanges, h]

@[simp] theorem exchanges_append (newer older : List Event) :
    exchanges (newer ++ older) = exchanges newer + exchanges older := by
  simp [exchanges]

theorem carriedBytes_eq_zero {events : List Event} (h : ∀ e ∈ events, e.isExchange = false) :
    carriedBytes events = 0 := by
  unfold carriedBytes
  rw [List.sum_eq_zero_iff_forall_eq_nat]
  simpa using fun e he => Event.carried_of_not_isExchange (h e he)

theorem obtainedBytes_eq_zero {events : List Event} (h : ∀ e ∈ events, e.isOfRead = true) :
    obtainedBytes events = 0 := by
  unfold obtainedBytes
  rw [List.sum_eq_zero_iff_forall_eq_nat]
  simpa using fun e he => (Event.isOfRead_quiet (h e he)).2

theorem exchanges_eq_zero {events : List Event} (h : ∀ e ∈ events, e.isExchange = false) :
    exchanges events = 0 := by
  unfold exchanges
  rw [List.countP_eq_zero]
  exact fun e he => Bool.eq_false_iff.1 (Event.isSwapping_of_not_isExchange (h e he))

/-- At no moment of a journal were more bytes carried than three times those delivered. A journal
has the latest event first, so that its ends are its moments. -/
def Affordable (journal : List Event) : Prop :=
  ∀ past, past <:+ journal → carriedBytes past ≤ 3 * deliveredBytes past

namespace Affordable

variable {journal : List Event}

theorem nil : Affordable [] := by
  intro past hpast
  rw [List.suffix_nil.1 hpast]
  exact Nat.zero_le _

theorem cons (h : Affordable journal) {e : Event}
    (he : carriedBytes (e :: journal) ≤ 3 * deliveredBytes (e :: journal)) :
    Affordable (e :: journal) := by
  intro past hpast
  rcases List.suffix_cons_iff.1 hpast with rfl | hpast
  · exact he
  · exact h past hpast

theorem append (h : Affordable journal) {events : List Event} (hnone : carriedBytes events = 0) :
    Affordable (events ++ journal) := by
  induction events with
  | nil => exact h
  | cons e events ih =>
    rw [carriedBytes_cons, Nat.add_eq_zero_iff] at hnone
    have hrest := ih hnone.2
    have hle := hrest _ List.suffix_rfl
    apply hrest.cons
    simp only [carriedBytes_cons, deliveredBytes_cons, hnone.1]
    omega

end Affordable

/-- Where a buffer was grown as far as a buffer can be, its own exchange is the last one. -/
def Conclusive (journal : List Event) (capacity : Nat) : Prop :=
  ∀ newer older small, journal = newer ++ .growing small maxCapacity :: older →
    capacity = maxCapacity ∧ ∃ later offset carried, newer = later ++ [.swapping offset carried] ∧
      ∀ e ∈ later, e.isExchange = false

namespace Conclusive

variable {journal : List Event} {capacity : Nat}

theorem nil : Conclusive [] capacity := by
  intro newer older small h
  simp at h

theorem append (h : Conclusive journal capacity) {events : List Event}
    (hquiet : ∀ e ∈ events, e.isExchange = false) : Conclusive (events ++ journal) capacity := by
  induction events with
  | nil => exact h
  | cons e events ih =>
    simp only [List.forall_mem_cons] at hquiet
    intro newer older small hjournal
    cases newer with
    | nil =>
      simp only [List.cons_append, List.nil_append, List.cons.injEq] at hjournal
      rw [hjournal.1] at hquiet
      cases hquiet.1
    | cons e' newer =>
      simp only [List.cons_append, List.cons.injEq] at hjournal
      obtain ⟨rfl, hrest⟩ := hjournal
      obtain ⟨hcapacity, later, offset, carried, rfl, hlater⟩ := ih hquiet.2 _ _ _ hrest
      exact ⟨hcapacity, e :: later, offset, carried, rfl, by simpa [hquiet.1] using hlater⟩

/-- An exchange happens only while the buffer can still grow. -/
theorem swapping (h : Conclusive journal capacity) (hlt : capacity < maxCapacity)
    {growth : List Event} {target : Nat}
    (hgrowth : growth = [] ∨ growth = [.growing capacity target]) (offset carried : Nat) :
    Conclusive (.swapping offset carried :: (growth ++ journal)) target := by
  intro newer older small hjournal
  cases newer with
  | nil => simp at hjournal
  | cons e newer =>
    simp only [List.cons_append, List.cons.injEq] at hjournal
    obtain ⟨rfl, hrest⟩ := hjournal
    have hbefore : ∀ newer older small, journal ≠ newer ++ .growing small maxCapacity :: older :=
      fun newer older small hmax => Nat.ne_of_lt hlt (h newer older small hmax).1
    rcases hgrowth with rfl | rfl
    · exact absurd hrest (hbefore _ _ _)
    · cases newer with
      | nil =>
        simp only [List.cons_append, List.nil_append, List.cons.injEq, Event.growing.injEq] at hrest
        exact ⟨hrest.1.2, [], offset, carried, rfl, by simp⟩
      | cons e newer =>
        simp only [List.cons_append, List.nil_append, List.cons.injEq] at hrest
        exact absurd hrest.2 (hbefore _ _ _)

end Conclusive

end StreamCursor
