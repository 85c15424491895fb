import StreamCursor.Proofs.Checked.Registers
import StreamCursor.Proofs.Cursor.Alike

/-! How registers hold the state of a cursor, and what a refill does to them. Main statements: a
read and an exchange change the registers as they change the cursor, and no check fails in them. -/

namespace StreamCursor

namespace Slot

variable {slot rest : Slot} {n k : Nat}

theorem take_grow (h : k ≤ slot.size) : (slot.grow n).bytes.take k = slot.bytes.take k := by
  rw [← take_eq, ← take_eq, take, take, grow, Nat.min_eq_left h,
    Nat.min_eq_left (Nat.le_trans h (Nat.le_max_left ..))]

theorem grow_of_le (h : n ≤ slot.size) : slot.grow n = slot := by
  obtain ⟨front, size, hle⟩ := slot
  simp only [grow, Nat.max_eq_left h]

theorem grow_drop_ofBytes {bytes : Bytes} (h : bytes.length ≤ n) :
    ((ofBytes bytes).grow n).drop bytes.length = blank (n - bytes.length) := by
  simp only [drop, grow, ofBytes, blank, List.drop_length, Nat.max_eq_right h]

theorem bytes_splice (h : n ≤ slot.size) :
    (slot.splice n rest).bytes = slot.bytes.take n ++ rest.bytes := by
  have hlength : (slot.bytes.take n).length = n :=
    List.length_take_of_le (by rwa [length_bytes])
  simp only [bytes, splice, take_eq] at hlength ⊢
  rw [List.append_assoc, List.length_append, hlength, Nat.add_sub_add_left]

theorem drop_splice (h : n ≤ slot.size) : (slot.splice n rest).drop (n + k) = rest.drop k := by
  have hlength : (slot.take n).length = n := by
    rw [take_eq, List.length_take_of_le (by rwa [length_bytes])]
  have hfront : (slot.take n ++ rest.front).drop (n + k) = rest.front.drop k := by
    rw [← List.drop_drop, List.drop_left' hlength]
  simp only [drop, splice, hfront, Nat.add_sub_add_left]

end Slot

namespace Registers

open Checked

variable {σ : Type} {c : Cursor σ} {content : Slot} {reportedTo unreported k reach : Nat}

/-- The registers over a cursor, if `content` is its buffer and what it has to report is split in
this way. -/
def ofCursor (c : Cursor σ) (content : Slot) (reportedTo unreported : Nat) : Registers σ where
  source := c.source
  ended := c.ended
  pool := c.pool
  content
  capacity := c.capacity
  stop := c.window.stop
  start := c.window.start
  position := c.window.position
  reportedTo
  unreported
  base := c.base

/-- The buffer holds the window and, while there is more to read, the room that is left; and the
committed bytes to report are those before the last exchange and those behind it. -/
structure Holds (c : Cursor σ) (content : Slot) (reportedTo unreported : Nat) : Prop where
  bytes : content.bytes.take c.window.stop = c.window.bytes
  spare : c.ended = none → (content.grow c.capacity).drop c.window.stop = c.spare
  size_le : content.size ≤ c.capacity
  capacity_le : c.capacity ≤ maxCapacity
  reportedTo_le : reportedTo ≤ c.window.start
  pending : reportedTo + c.pending = unreported + c.window.start

namespace Holds

theorem stop_le (h : Holds c content reportedTo unreported) : c.window.stop ≤ content.size := by
  have hlength := congrArg List.length h.bytes
  rw [List.length_take, Slot.length_bytes, Window.length_bytes] at hlength
  omega

theorem size_grow (h : Holds c content reportedTo unreported) :
    (content.grow c.capacity).size = c.capacity := Nat.max_eq_right h.size_le

theorem stop_le_grow (h : Holds c content reportedTo unreported) :
    c.window.stop ≤ (content.grow c.capacity).size := by
  rw [h.size_grow]
  exact Nat.le_trans h.stop_le h.size_le

theorem room (h : Holds c content reportedTo unreported) (hopen : c.ended = none) :
    c.window.stop + c.spare.size = c.capacity := by
  have hroom : (content.grow c.capacity).size - c.window.stop = c.spare.size :=
    congrArg Slot.size (h.spare hopen)
  have hstop := h.stop_le_grow
  rw [h.size_grow] at hroom hstop
  omega

theorem ordered (h : Holds c content reportedTo unreported) :
    (ofCursor c content reportedTo unreported).Ordered :=
  ⟨Nat.le_add_right .., Nat.le_add_right .., h.stop_le, h.size_le, h.capacity_le, h.reportedTo_le⟩

/-- A part of the buffer before `stop` is that part of the window. -/
theorem slice_eq (h : Holds c content reportedTo unreported) {start stop : Nat}
    (hstart : start ≤ stop) (hstop : stop ≤ c.window.stop) :
    slice content.bytes start stop = .ok ((c.window.bytes.drop start).take (stop - start)) := by
  have hsize := h.stop_le
  rw [Checked.slice_eq hstart (by rw [Slot.length_bytes]; omega), ← h.bytes, List.drop_take,
    List.take_take]
  congr 3
  omega

theorem token_eq (h : Holds c content reportedTo unreported) :
    (ofCursor c content reportedTo unreported).token = .ok c.token := by
  have hslice : slice content.bytes c.window.start c.window.position = _ :=
    h.slice_eq (Nat.le_add_right ..) (Nat.le_add_right ..)
  rw [Window.drop_start, Window.position, Nat.add_sub_cancel_left, Window.take_mark] at hslice
  exact hslice

theorem ahead_eq (h : Holds c content reportedTo unreported) :
    (ofCursor c content reportedTo unreported).ahead = .ok c.window.ahead.bytes := by
  have hslice : slice content.bytes c.window.position c.window.stop = _ :=
    h.slice_eq (Nat.le_add_right ..) (Nat.le_refl _)
  rw [Window.drop_position, Window.stop, Nat.add_sub_cancel_left,
    List.take_of_length_le (Nat.le_of_eq (Lookahead.length_bytes _))] at hslice
  exact hslice

/-- A place before `stop` has the byte that lies ahead of the cursor. -/
theorem get_eq (h : Holds c content reportedTo unreported) (hk : k < c.window.ahead.size) :
    get content.bytes (c.window.position + k) = .ok ((c.window.ahead.get? k).getD 0) := by
  have hlt : k < c.window.ahead.bytes.length := by rwa [Lookahead.length_bytes]
  have hplace : c.window.position + k < c.window.stop := Nat.add_lt_add_left hk _
  apply Checked.get_eq
  rw [Lookahead.get?_eq, List.getElem?_eq_getElem hlt, Option.getD_some,
    ← List.getElem?_eq_getElem hlt, ← Window.drop_position, ← h.bytes, List.getElem?_drop,
    List.getElem?_take_of_lt hplace]

/-- Another window over the same bytes, and another split of what is to be reported. -/
theorem reposition (h : Holds c content reportedTo unreported) {window : Window}
    (hbytes : window.bytes = c.window.bytes) {pending reportedTo' unreported' : Nat}
    (hle : reportedTo' ≤ window.start)
    (hpending : reportedTo' + pending = unreported' + window.start) :
    Holds { c with window, pending } content reportedTo' unreported' := by
  have hstop := Window.stop_of_bytes hbytes
  refine ⟨?_, fun hopen => ?_, h.size_le, h.capacity_le, hle, hpending⟩
  · rw [hstop, hbytes]
    exact h.bytes
  · rw [hstop]
    exact h.spare hopen

end Holds

theorem target_eq {capacity : Nat} (hcapacity : capacity ≤ maxCapacity)
    (hreach : reach < maxCapacity) :
    target capacity reach = .ok (Cursor.nextCapacity capacity reach) := by
  have hword : reach + 1 ≤ maxWord := le_maxWord (by omega)
  have hdouble : mulUpTo reach 2 = 2 * reach := by
    rw [mulUpTo, Nat.min_eq_left (le_maxWord (by omega)), Nat.mul_comm]
  rw [target, add_eq hword]
  change (if capacity < mulUpTo reach 2 then _ else _) = _
  rw [hdouble, Cursor.nextCapacity]
  split
  · simp only [addUpTo, mulUpTo, maxWord, maxCapacity] at hcapacity hreach ⊢
    congr 1
    omega
  · rfl

/-- What is taken in of a reply are the bytes delivered, and what is learnt is why it is the last
one, if it is. -/
theorem takeIn_eq {m : Registers σ} (slot : Slot) (hopen : m.ended = none)
    (hslot : m.stop + slot.size = m.content.size) (hsize : m.content.size ≤ maxCapacity)
    (reply : Reply) (left : Slot) :
    m.takeIn reply.outcome left = .ok { m with
      content := m.content.splice m.stop left
      stop := m.stop + (reply.delivered slot).length
      ended := reply.ending slot } := by
  have hstop : m.stop ≤ m.content.size := by omega
  have hroom : m.content.size - m.stop = slot.size := by omega
  have hlength := reply.length_delivered slot
  have hword : m.stop + (reply.delivered slot).length ≤ maxWord := by
    have := reply.length_delivered_le slot
    exact le_maxWord (by omega)
  unfold takeIn Reply.ending
  rw [sub_eq hstop, hroom, hopen]
  cases houtcome : reply.outcome with
  | error cause =>
    rw [houtcome] at hlength
    rw [hlength] at hword ⊢
    change (add m.stop 0 >>= fun _ => _) = _
    rw [add_eq hword]
    rfl
  | ok count =>
    rw [houtcome] at hlength
    have hempty : (reply.delivered slot).isEmpty = true ↔ min count slot.size = 0 := by
      rw [List.isEmpty_iff_length_eq_zero, hlength]
    rw [hlength] at hword
    change (add m.stop (min count slot.size) >>= fun _ => _) = _
    rw [add_eq hword, hlength]
    simp only [hempty]
    simp [bind, Except.bind, pure, Except.pure]

theorem rebase_eq {m : Registers σ} (hreported : m.reportedTo ≤ m.start)
    (hstart : m.start ≤ m.position) :
    m.rebase = .ok { m with
      base := m.base + m.start
      unreported := m.unreported + (m.start - m.reportedTo)
      reportedTo := 0
      position := m.position - m.start
      start := 0 } := by
  rw [rebase, sub_eq hreported, sub_eq hstart]
  rfl

section Exchange

variable {pool : Pool} {events : List Event}

theorem ofCursor_carriedOver (c : Cursor σ) (reach : Nat) (pool : Pool) (events : List Event) :
    ofCursor (c.carriedOver reach pool events) content reportedTo unreported =
      { source := c.source
        ended := c.ended
        pool
        content
        capacity := Cursor.nextCapacity c.capacity reach
        stop := c.window.kept.length
        start := 0
        position := c.window.mark
        reportedTo
        unreported
        base := c.base + c.window.start } := by
  have hposition : (Window.ofBytes c.window.kept c.window.mark).position = c.window.mark :=
    (Nat.zero_add _).trans (Window.mark_ofBytes (by simp))
  rw [← hposition, ← Window.stop_ofBytes c.window.kept c.window.mark]
  rfl

/-- The bytes carried over are all that the new buffer holds. -/
theorem Holds.carriedOver (h : Holds c content reportedTo unreported)
    (hreach : reach < maxCapacity) (pool : Pool) (events : List Event) :
    Holds (c.carriedOver reach pool events) (.ofBytes c.window.kept) 0
      (unreported + (c.window.start - reportedTo)) := by
  have hnext : c.capacity ≤ Cursor.nextCapacity c.capacity reach :=
    Cursor.le_nextCapacity h.capacity_le
  have hkept : c.window.kept.length ≤ Cursor.nextCapacity c.capacity reach := by
    have hstop := h.stop_le_grow
    rw [h.size_grow, Window.stop, Window.position] at hstop
    rw [Window.length_kept]
    omega
  constructor
  · change (Slot.ofBytes c.window.kept).bytes.take (Window.ofBytes _ _).stop =
      (Window.ofBytes _ _).bytes
    rw [Window.stop_ofBytes, Slot.bytes_ofBytes, Window.bytes_ofBytes, List.take_length]
  · intro _
    change ((Slot.ofBytes _).grow (Cursor.nextCapacity _ _)).drop (Window.ofBytes _ _).stop = _
    rw [Window.stop_ofBytes]
    exact Slot.grow_drop_ofBytes hkept
  · exact hkept
  · exact Cursor.nextCapacity_le h.capacity_le hreach
  · exact Nat.zero_le _
  · have hpending := h.pending
    have hreported := h.reportedTo_le
    change 0 + c.pending = unreported + (c.window.start - reportedTo) + 0
    omega

/-- An exchange changes the registers as it changes the cursor. -/
theorem Holds.exchange_eq (h : Holds c content reportedTo unreported) (hw : c.pool.WellFormed)
    (hreach : reach < maxCapacity)
    (he : Pool.Exchanged c.pool ⟨c.window.bytes, c.capacity⟩ c.window.start
      (Cursor.nextCapacity c.capacity reach) events
      ⟨c.window.kept, Cursor.nextCapacity c.capacity reach⟩ pool) :
    (ofCursor c content reportedTo unreported).exchange reach =
      .ok (ofCursor (c.carriedOver reach pool events) (.ofBytes c.window.kept) 0
        (unreported + (c.window.start - reportedTo))) := by
  have hnext : c.capacity ≤ Cursor.nextCapacity c.capacity reach :=
    Cursor.le_nextCapacity h.capacity_le
  have hstart := c.window.start_le_stop
  have hstop := h.stop_le_grow
  rw [h.size_grow] at hstop
  have hmark : c.window.position - c.window.start = c.window.mark := Nat.add_sub_cancel_left ..
  have hretired : content.take c.window.stop = c.window.bytes := (Slot.take_eq ..).trans h.bytes
  have hsize : (⟨c.window.bytes, c.capacity⟩ : Buffer).size = c.window.stop :=
    Window.length_bytes _
  have hpool := he.exchangeChecked_eq hw (by omega) (by omega)
    (Cursor.nextCapacity_le h.capacity_le hreach)
  unfold Registers.exchange
  change (target c.capacity reach >>= fun _ => _) = _
  rw [target_eq h.capacity_le hreach]
  change (sub c.window.stop c.window.start >>= fun _ => _) = _
  rw [sub_eq hstart]
  change (c.pool.exchangeChecked ⟨content.take c.window.stop, c.capacity⟩ c.window.start _ >>=
    fun _ => _) = _
  rw [hretired, hpool, ofCursor_carriedOver, ← hmark]
  exact rebase_eq h.reportedTo_le (Nat.le_add_right ..)

end Exchange

section Refill

variable [Source σ]

theorem ofCursor_read (hopen : c.ended = none) :
    ofCursor c.read content reportedTo unreported =
      { ofCursor c content reportedTo unreported with
        source := (Source.read c.source c.spare).2
        stop := c.window.stop + c.arriving.length
        ended := c.reply.ending c.spare } := by
  have hended := Cursor.ended_read hopen
  rw [ofCursor, Cursor.source_read, Cursor.window_read, Cursor.pool_read, Cursor.capacity_read,
    Cursor.base_read, hended, Window.stop_extend]
  rfl

/-- A read changes the registers as it changes the cursor. -/
theorem Holds.read_eq (h : Holds c content reportedTo unreported) (hopen : c.ended = none) :
    (ofCursor c content reportedTo unreported).read =
      .ok (ofCursor c.read
        ((content.grow c.capacity).splice c.window.stop (c.reply.leaves c.spare)) reportedTo
        unreported) := by
  have hspare : (ofCursor c content reportedTo unreported).grown.spare = .ok c.spare := by
    rw [← h.spare hopen]
    exact congrArg (· >>= fun _ => _) (require_eq h.stop_le_grow .slice)
  rw [Registers.read, hspare]
  refine (takeIn_eq c.spare hopen ?_ ?_ c.reply _).trans ?_
  · exact (h.room hopen).trans h.size_grow.symm
  · exact Nat.le_trans (Nat.le_of_eq h.size_grow) h.capacity_le
  · rw [ofCursor_read hopen]
    rfl

/-- What the source left lies behind the window, as far as it was delivered in the window. -/
theorem Holds.read (h : Holds c content reportedTo unreported) (hopen : c.ended = none) :
    Holds c.read ((content.grow c.capacity).splice c.window.stop (c.reply.leaves c.spare))
      reportedTo unreported := by
  have hsize : ((content.grow c.capacity).splice c.window.stop (c.reply.leaves c.spare)).size =
      c.capacity := h.room hopen
  have harriving : (c.reply.leaves c.spare).bytes.take c.arriving.length = c.arriving :=
    Reply.take_delivered ..
  have hlength : (content.bytes.take c.window.stop).length = c.window.stop := by
    rw [h.bytes, Window.length_bytes]
  constructor
  · rw [Cursor.window_read, Window.stop_extend, Window.bytes_extend,
      Slot.bytes_splice h.stop_le_grow, Slot.take_grow h.stop_le, List.take_append,
      List.take_of_length_le (by omega), hlength, Nat.add_sub_cancel_left, harriving, h.bytes]
  · intro _
    rw [Cursor.capacity_read, Cursor.window_read, Window.stop_extend, Cursor.spare_read,
      Slot.grow_of_le (Nat.le_of_eq hsize.symm), Slot.drop_splice h.stop_le_grow]
  · rw [Cursor.capacity_read]
    exact Nat.le_of_eq hsize
  · rw [Cursor.capacity_read]
    exact h.capacity_le
  · rw [Cursor.window_read]
    exact h.reportedTo_le
  · rw [Cursor.window_read, Cursor.pending_read]
    exact h.pending

omit [Source σ] in
theorem Holds.log (h : Holds c content reportedTo unreported) (events : List Event) :
    Holds (c.log events) content reportedTo unreported :=
  ⟨h.bytes, h.spare, h.size_le, h.capacity_le, h.reportedTo_le, h.pending⟩

/-- A refill that the cursor is able to do brings no check to fail. -/
theorem Holds.refill (h : Holds c content reportedTo unreported) (hhealthy : c.Healthy)
    (hopen : c.ended = none) (hreach : c.window.position + k < maxCapacity) {later : Cursor σ}
    (hrefill : c.refill k = .ok later) :
    ∃ content' reportedTo' unreported',
      (ofCursor c content reportedTo unreported).refill (c.window.position + k) =
        .ok (ofCursor later content' reportedTo' unreported') ∧
      Holds later content' reportedTo' unreported' := by
  by_cases hfits : c.window.position + k < c.capacity
  · rw [Cursor.refill, if_pos hfits] at hrefill
    cases hrefill
    have hlog := h.log [.toppingUp c.window.stop c.capacity]
    exact ⟨_, _, _, (if_pos hfits).trans (hlog.read_eq hopen), hlog.read hopen⟩
  · obtain ⟨portions, freed, haccounts⟩ := hhealthy.accounts
    have hmark : c.window.mark + k < maxCapacity := by
      simp only [Window.position] at hreach
      omega
    obtain ⟨events, pool, he, hexchange⟩ := hhealthy.sound.exchange_eq hopen hmark
    rw [Cursor.refill, if_neg hfits, hexchange] at hrefill
    cases hrefill
    have hcarried := h.carriedOver hmark pool events
    refine ⟨_, _, _, ?_, hcarried.read hopen⟩
    refine (if_neg hfits).trans ?_
    change (sub (c.window.position + k) c.window.start >>= fun _ => _) = _
    rw [sub_eq (c.window.start_le_position_add k), c.window.position_add_sub_start]
    change ((ofCursor c content reportedTo unreported).exchange (c.window.mark + k) >>=
      fun _ => _) = _
    rw [h.exchange_eq haccounts.toWellFormed hmark he]
    exact hcarried.read_eq hopen

end Refill
end Registers
end StreamCursor
