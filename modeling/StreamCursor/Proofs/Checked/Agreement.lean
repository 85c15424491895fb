import StreamCursor.Proofs.Checked.Refill

/-! The checked machine beside the cursor that it spells out. Main statement: from registers that
hold the state of a cursor no operation fails a check, the answer is the cursor's, and the
registers left hold the state of the cursor left. -/

namespace StreamCursor
namespace Registers

open Checked

variable {σ : Type} [Source σ] {c : Cursor σ} {content : Slot} {reportedTo unreported k : Nat}

theorem Holds.fill_succ (h : Holds c content reportedTo unreported)
    (hreach : c.window.position + k < maxCapacity) (turns : Nat) :
    (ofCursor c content reportedTo unreported).fill (c.window.mark + k) (turns + 1) =
      if k < c.window.ahead.size then
        .ok ((c.window.ahead.get? k).getD 0, ofCursor c content reportedTo unreported)
      else if c.isExhausted then .ok (0, ofCursor c content reportedTo unreported)
      else (ofCursor c content reportedTo unreported).refill (c.window.position + k) >>=
        Registers.fill (c.window.mark + k) turns := by
  have hplace : c.window.start + (c.window.mark + k) = c.window.position + k :=
    (Nat.add_assoc ..).symm
  have hword : c.window.start + (c.window.mark + k) ≤ maxWord := le_maxWord (by omega)
  rw [Registers.fill]
  change (add c.window.start (c.window.mark + k) >>= fun _ => _) = _
  rw [add_eq hword, hplace]
  change (if c.window.position + k < c.window.position + c.window.ahead.size then _ else _) = _
  by_cases hk : k < c.window.ahead.size
  · rw [if_pos (Nat.add_lt_add_left hk _), if_pos hk]
    change (get content.bytes (c.window.position + k) >>= fun _ => _) = _
    rw [h.get_eq hk]
    rfl
  · rw [if_neg (by omega), if_neg hk]
    rfl

theorem Holds.fill_of_done (h : Holds c content reportedTo unreported)
    (hreach : c.window.position + k < maxCapacity) (turns : Nat)
    (hdone : c.isExhausted ∨ k < c.window.ahead.size) :
    (ofCursor c content reportedTo unreported).fill (c.window.mark + k) (turns + 1) =
      .ok ((c.window.ahead.get? k).getD 0, ofCursor c content reportedTo unreported) := by
  rw [h.fill_succ hreach]
  by_cases hk : k < c.window.ahead.size
  · exact if_pos hk
  · rw [if_neg hk, if_pos (hdone.resolve_right hk),
      Lookahead.get?_of_size_le (Nat.le_of_not_lt hk)]
    rfl

theorem peek_of_beyond {m : Registers σ} (h : maxCapacity ≤ m.position + k) :
    m.peek k = .ok (0, m) := if_pos (.inr h)

theorem not_beyond {i : Nat} (h : i < maxCapacity) : ¬(maxWord < i ∨ maxCapacity ≤ i) := by
  have hword : maxCapacity ≤ maxWord := by decide
  omega

theorem Holds.peek_of_lt (h : Holds c content reportedTo unreported)
    (hreach : c.window.position + k < maxCapacity) (hk : k < c.window.ahead.size) :
    (ofCursor c content reportedTo unreported).peek k =
      .ok ((c.window.ahead.get? k).getD 0, ofCursor c content reportedTo unreported) := by
  refine (if_neg (not_beyond hreach)).trans ((if_pos (Nat.add_lt_add_left hk _)).trans ?_)
  change (get content.bytes (c.window.position + k) >>= fun _ => _) = _
  rw [h.get_eq hk]
  rfl

/-- A byte that is missing is looked for in a loop. -/
theorem peek_of_missing (hreach : c.window.position + k < maxCapacity)
    (hk : c.window.ahead.size ≤ k) :
    (ofCursor c content reportedTo unreported).peek k =
      (ofCursor c content reportedTo unreported).fill (c.window.mark + k)
        (c.window.mark + k + 2) := by
  have hstop : ¬c.window.position + k < c.window.stop :=
    Nat.not_lt.2 (Nat.add_le_add_left hk _)
  refine (if_neg (not_beyond hreach)).trans ((if_neg hstop).trans ?_)
  change (sub (c.window.position + k) c.window.start >>= fun _ => _) = _
  rw [sub_eq (c.window.start_le_position_add k), c.window.position_add_sub_start]
  rfl

/-- The registers hold a cursor's state, and the cursor is in order. -/
structure Agrees (m : Registers σ) (c : Cursor σ) : Prop where
  healthy : c.Healthy
  held : ∃ content reportedTo unreported,
    m = ofCursor c content reportedTo unreported ∧ Holds c content reportedTo unreported

namespace Agrees

variable {m : Registers σ}

/-- The loop ends within the turns it is given, since every refill brings a byte or the end. -/
theorem fill (h : m.Agrees c) {refills turns : Nat}
    (hbound : c.isExhausted ∨ k < c.window.ahead.size + refills) (hturns : refills < turns)
    (hreach : c.window.position + k < maxCapacity) :
    ∃ m' c', c.fill k refills = .ok c' ∧
      m.fill (c.window.mark + k) turns = .ok ((c'.window.ahead.get? k).getD 0, m') ∧
      m'.Agrees c' := by
  -- A refill that does not end the stream lowers the number of missing bytes, and so the refills
  -- that are still needed, while it takes one turn.
  induction turns generalizing m c refills with
  | zero => cases hturns
  | succ turns ih =>
    obtain ⟨content, reportedTo, unreported, rfl, hholds⟩ := h.held
    by_cases hdone : c.isExhausted ∨ k < c.window.ahead.size
    · exact ⟨_, c, Cursor.Faithful.fill_of_done hdone, hholds.fill_of_done hreach turns hdone, h⟩
    · obtain ⟨hexhausted, hmissing⟩ := not_or.1 hdone
      have hopen : c.ended = none := by simpa [Cursor.isExhausted] using hexhausted
      have hneeded := hbound.resolve_left hexhausted
      obtain ⟨refills, rfl⟩ : ∃ n, refills = n + 1 := ⟨refills - 1, by omega⟩
      obtain ⟨stream, freed, hfaithful⟩ := h.healthy
      obtain ⟨next, part, hrefill, hnext, hend⟩ :=
        hfaithful.refill hopen (Nat.le_of_not_lt hmissing) hreach
      obtain ⟨content', reportedTo', unreported', hstep, hheld⟩ :=
        hholds.refill h.healthy hopen hreach hrefill
      have hsize := hnext.size_ahead hfaithful
      have hposition := hnext.samePlace.position_le
      have hleft : next.isExhausted ∨ k < next.window.ahead.size + refills := by
        by_cases hnone : part = []
        · exact .inl (hend hnone)
        · have hpart := List.length_pos_iff.2 hnone
          exact .inr (by omega)
      obtain ⟨m', c', hfill, hrun, hagrees⟩ :=
        ih ⟨⟨_, _, hnext.faithful⟩, _, _, _, rfl, hheld⟩ hleft (by omega) (by omega)
      refine ⟨m', c', ?_, ?_, hagrees⟩
      · rw [Cursor.Faithful.fill_succ hdone hrefill, hfill]
      · rw [hnext.samePlace.mark] at hrun
        rw [hholds.fill_succ hreach, if_neg hmissing, if_neg hexhausted, hstep]
        exact hrun

/-- No check fails in a peek, whatever place is asked for. -/
theorem peek (h : m.Agrees c) (k : Nat) :
    ∃ b m' c', m.peek k = .ok (b, m') ∧ c.peek k = .ok (b, c') ∧ m'.Agrees c' := by
  obtain ⟨content, reportedTo, unreported, rfl, hholds⟩ := h.held
  have hstop : c.window.position + c.window.ahead.size ≤ maxCapacity := hholds.ordered.stop_le_max
  by_cases hbeyond : maxCapacity ≤ c.window.position + k
  · refine ⟨0, _, c, peek_of_beyond hbeyond, ?_, h⟩
    rw [Cursor.peek, Lookahead.get?_of_size_le (by omega)]
    exact if_pos hbeyond
  · have hreach := Nat.lt_of_not_le hbeyond
    by_cases hk : k < c.window.ahead.size
    · have hsome : c.window.ahead.get? k = some ((c.window.ahead.get? k).getD 0) := by
        rw [Lookahead.get?_eq, List.getElem?_eq_getElem (by rwa [Lookahead.length_bytes])]
        rfl
      refine ⟨(c.window.ahead.get? k).getD 0, _, c, hholds.peek_of_lt hreach hk, ?_, h⟩
      rw [Cursor.peek, hsome]
      rfl
    · have hmissing := Nat.le_of_not_lt hk
      have hbound : c.isExhausted ∨
          k < c.window.ahead.size + (k + 1 - c.window.ahead.size) := .inr (by omega)
      have hturns : k + 1 - c.window.ahead.size < c.window.mark + k + 2 := by omega
      obtain ⟨m', c', hfill, hrun, hagrees⟩ := h.fill hbound hturns hreach
      refine ⟨(c'.window.ahead.get? k).getD 0, m', c', ?_, ?_, hagrees⟩
      · rw [peek_of_missing hreach hmissing]
        exact hrun
      · rw [Cursor.peek, Lookahead.get?_of_size_le hmissing]
        simp only [if_neg hbeyond, hfill, Except.map]

/-- Another window over the same bytes, and another split of what is to be reported. -/
theorem reposition (hhealthy : c.Healthy) (h : Holds c content reportedTo unreported)
    {window : Window} (hbytes : window.bytes = c.window.bytes)
    {pending reportedTo' unreported' : Nat} (hle : reportedTo' ≤ window.start)
    (hpending : reportedTo' + pending = unreported' + window.start) :
    Agrees
      { ofCursor c content reportedTo unreported with
        start := window.start
        position := window.position
        reportedTo := reportedTo'
        unreported := unreported' }
      { c with window, pending } := by
  refine ⟨hhealthy.reposition hbytes _, _, _, _, ?_, h.reposition hbytes hle hpending⟩
  rw [ofCursor, ofCursor, Window.stop_of_bytes hbytes]

theorem move (h : m.Agrees c) (n : Int) : ∃ m', m.move n = .ok m' ∧ m'.Agrees (c.move n) := by
  obtain ⟨content, reportedTo, unreported, rfl, hholds⟩ := h.held
  have hstart := Window.start_move c.window n
  have hplace : (c.window.move n).position =
      max c.window.start (min (shift c.window.position n) c.window.stop) := by
    have hmark := Window.mark_move c.window n
    have hword : c.window.stop ≤ maxWord := Nat.le_trans hholds.ordered.stop_le_max (by decide)
    rw [shift]
    simp only [Window.position, Window.stop, hstart] at hword ⊢
    omega
  have hagrees := reposition h.healthy hholds (Window.bytes_move c.window n)
    (hstart ▸ hholds.reportedTo_le) (hstart ▸ hholds.pending)
  rw [hplace, hstart] at hagrees
  refine ⟨_, ?_, hagrees⟩
  change (clamp (shift c.window.position n) c.window.start c.window.stop >>= fun _ => _) = _
  rw [clamp_eq c.window.start_le_stop]
  rfl

theorem ordered (h : m.Agrees c) : m.Ordered := by
  obtain ⟨content, reportedTo, unreported, rfl, hholds⟩ := h.held
  exact hholds.ordered

theorem offsets (h : m.Agrees c) : m.offset = c.offset ∧ m.tokenOffset = c.tokenOffset := by
  obtain ⟨content, reportedTo, unreported, rfl, hholds⟩ := h.held
  exact ⟨rfl, rfl⟩

theorem token (h : m.Agrees c) : m.token = .ok c.token := by
  obtain ⟨content, reportedTo, unreported, rfl, hholds⟩ := h.held
  exact hholds.token_eq

theorem ahead (h : m.Agrees c) : m.ahead = .ok c.window.ahead.bytes := by
  obtain ⟨content, reportedTo, unreported, rfl, hholds⟩ := h.held
  exact hholds.ahead_eq

theorem occupancy (h : m.Agrees c) : m.pool.occupancyChecked = .ok c.pool.occupancy := by
  obtain ⟨content, reportedTo, unreported, rfl, hholds⟩ := h.held
  obtain ⟨portions, freed, haccounts⟩ := h.healthy.accounts
  exact haccounts.occupancyChecked_eq

theorem visibleEnd (h : m.Agrees c) : m.visibleEnd = c.visibleEnd := by
  obtain ⟨content, reportedTo, unreported, rfl, hholds⟩ := h.held
  unfold Registers.visibleEnd Cursor.visibleEnd
  change (if c.window.position < c.window.position + c.window.ahead.size then none else c.ended) = _
  by_cases hempty : c.window.ahead.size = 0
  · simp [Lookahead.isEmpty, hempty]
  · rw [if_pos (by omega), if_neg (by simpa [Lookahead.isEmpty] using hempty)]

theorem mark (h : m.Agrees c) : m.mark = .ok c.mark := by
  obtain ⟨content, reportedTo, unreported, rfl, hholds⟩ := h.held
  refine (sub_eq hholds.ordered.start_le).trans ?_
  exact congrArg Except.ok (Nat.add_sub_cancel_left ..)

theorem rewind (h : m.Agrees c) (mark : Nat) : (m.rewind mark).Agrees (c.rewind mark) := by
  obtain ⟨content, reportedTo, unreported, rfl, hholds⟩ := h.held
  have hstart := Window.start_rewind c.window mark
  have hplace : (c.window.rewind mark).position =
      min (addUpTo c.window.start mark) c.window.stop := by
    have hmark := Window.mark_rewind c.window mark
    have hword : c.window.stop ≤ maxWord := Nat.le_trans hholds.ordered.stop_le_max (by decide)
    rw [addUpTo]
    simp only [Window.position, Window.stop, hstart] at hword ⊢
    omega
  have hagrees := reposition h.healthy hholds (Window.bytes_rewind c.window mark)
    (hstart ▸ hholds.reportedTo_le) (hstart ▸ hholds.pending)
  rw [hplace, hstart] at hagrees
  exact hagrees

theorem commit (h : m.Agrees c) : m.commit.Agrees c.commit := by
  obtain ⟨content, reportedTo, unreported, rfl, hholds⟩ := h.held
  have hstart := Window.start_commit c.window
  have hle : reportedTo ≤ c.window.position :=
    Nat.le_trans hholds.reportedTo_le hholds.ordered.start_le
  have hpending : reportedTo + (c.pending + c.window.mark) = unreported + c.window.position := by
    have := hholds.pending
    rw [Window.position]
    omega
  have hagrees := reposition h.healthy hholds (Window.bytes_commit c.window)
    (hstart ▸ hle) (hstart ▸ hpending)
  rw [Window.position, hstart] at hagrees
  exact hagrees

theorem take (h : m.Agrees c) : ∃ m', m.take = .ok (c.token, m') ∧ m'.Agrees c.commit := by
  refine ⟨m.commit, ?_, h.commit⟩
  obtain ⟨content, reportedTo, unreported, rfl, hholds⟩ := h.held
  change ((ofCursor c content reportedTo unreported).token >>= fun _ => _) = _
  rw [hholds.token_eq]
  rfl

theorem report (h : m.Agrees c) :
    ∃ m', m.report = .ok (c.pending, m') ∧ m'.Agrees { c with pending := 0 } := by
  obtain ⟨content, reportedTo, unreported, rfl, hholds⟩ := h.held
  have hpending := hholds.pending
  have hsum : unreported + c.window.start - reportedTo = c.pending := by omega
  refine ⟨_, ?_, reposition h.healthy hholds rfl (Nat.le_refl _) (Nat.add_comm ..)⟩
  change (sub (unreported + c.window.start) reportedTo >>= fun _ => _) = _
  rw [sub_eq (by omega), hsum]
  rfl

theorem consume (h : m.Agrees c) (n : Nat) :
    ∃ m', m.consume n = .ok m' ∧ m'.Agrees (c.consume n) := by
  obtain ⟨content, reportedTo, unreported, rfl, hholds⟩ := h.held
  obtain ⟨portions, freed, haccounts⟩ := h.healthy.accounts
  refine ⟨ofCursor (c.consume n) content reportedTo unreported, ?_, h.healthy.consume n, _, _, _,
    rfl, ⟨hholds.bytes, hholds.spare, hholds.size_le, hholds.capacity_le, hholds.reportedTo_le,
    hholds.pending⟩⟩
  change (c.pool.consumeChecked n >>= fun _ => _) = _
  rw [haccounts.toWellFormed.consumeChecked_eq]
  rfl

theorem release (h : m.Agrees c) : ∃ m', m.release = .ok m' ∧ m'.Agrees c.release := by
  obtain ⟨next, hreport, hnext⟩ := h.report
  obtain ⟨m', hconsume, hagrees⟩ := hnext.consume c.pending
  refine ⟨m', ?_, hagrees⟩
  rw [Registers.release, hreport]
  exact hconsume

end Agrees

/-- A sum that is no word leads to the same as the greatest word. -/
theorem peek_addUpTo (m : Registers σ) (k i : Nat) : m.peek (addUpTo k i) = m.peek (k + i) := by
  by_cases hword : k + i ≤ maxWord
  · rw [addUpTo, Nat.min_eq_left hword]
  · have hmax : addUpTo k i = maxWord := Nat.min_eq_right (Nat.le_of_not_le hword)
    have hle : maxCapacity ≤ maxWord := by decide
    rw [peek_of_beyond (by omega), peek_of_beyond (by omega)]

theorem update_inStep {f : Registers σ → Checked (Registers σ)} {s : Scan σ Answer}
    {g : Cursor σ → Cursor σ} (hs : ∀ c, s c = .ok (.nothing, g c))
    (hf : ∀ m c, Agrees m c → ∃ m', f m = .ok m' ∧ m'.Agrees (g c)) :
    InStep (Agrees (σ := σ)) (update f) s := by
  intro m c h
  obtain ⟨m', hm, hagrees⟩ := hf m c h
  refine ⟨.nothing, m', g c, ?_, hs c, hagrees⟩
  change ((f m >>= fun m' => .ok (m', m)) >>= fun p => .ok (Answer.nothing, p.1)) = _
  rw [hm]
  rfl

/-- Every operation of the machine passes its checks and goes along with that of the cursor. -/
theorem perform_inStep (op : Operation) :
    InStep (Agrees (σ := σ)) (perform op) (Operation.perform op) := by
  cases op with
  | peek k => exact .bind (fun m c h => h.peek k) fun b => .pure _
  | codePoint k =>
    refine .bind (.decode fun i m c h => ?_) fun p => .pure _
    have hpeek := h.peek (k + i)
    rwa [← peek_addUpTo] at hpeek
  | move n => exact update_inStep (fun c => rfl) fun m c h => h.move n
  | mark =>
    intro m c h
    refine ⟨.number c.mark, m, c, ?_, rfl, h⟩
    change ((m.mark >>= fun n => .ok (n, m)) >>= fun p => .ok (Answer.number p.1, p.2)) = _
    rw [h.mark]
    rfl
  | rewind mark => exact update_inStep (fun c => rfl) fun m c h => ⟨_, rfl, h.rewind mark⟩
  | take =>
    intro m c h
    obtain ⟨m', htake, hagrees⟩ := h.take
    refine ⟨.bytes c.token, m', c.commit, ?_, rfl, hagrees⟩
    change (m.take >>= fun p => .ok (Answer.bytes p.1, p.2)) = _
    rw [htake]
    rfl
  | commit => exact update_inStep (fun c => rfl) fun m c h => ⟨_, rfl, h.commit⟩
  | report =>
    intro m c h
    obtain ⟨m', hreport, hagrees⟩ := h.report
    refine ⟨.number c.pending, m', _, ?_, rfl, hagrees⟩
    change (m.report >>= fun p => .ok (Answer.number p.1, p.2)) = _
    rw [hreport]
    rfl
  | consume n => exact update_inStep (fun c => rfl) fun m c h => h.consume n
  | release => exact update_inStep (fun c => rfl) fun m c h => h.release

section Opening

variable {source : σ}

theorem agrees_adopting {buffer : Buffer} (hsize : buffer.size ≤ buffer.capacity)
    (hmax : buffer.capacity ≤ maxCapacity) :
    (holding source buffer (some .eof)).Agrees (Cursor.adopting source buffer) := by
  have hbytes : (Cursor.adopting source buffer).window.bytes = buffer.bytes := by
    simp [Cursor.adopting, Window.bytes, Window.kept, Window.token]
  have hstop : (Cursor.adopting source buffer).window.stop = buffer.size := by
    rw [← Window.length_bytes, hbytes]
    rfl
  refine ⟨⟨buffer.bytes, 0, Cursor.faithful_adopting trivial⟩, .ofBytes buffer.bytes, 0, 0, ?_, ?_⟩
  · rw [ofCursor, hstop]
    rfl
  · refine ⟨?_, fun hopen => absurd hopen (Option.some_ne_none _), hsize, hmax, Nat.zero_le _, rfl⟩
    rw [hstop, hbytes, Slot.bytes_ofBytes]
    exact List.take_length

theorem agrees_unread {capacity : Nat} (hpos : 0 < capacity) (hmax : capacity ≤ maxCapacity) :
    (holding source ⟨[], capacity⟩ none).Agrees (Cursor.unread source capacity) := by
  refine ⟨⟨[], 0, Cursor.faithful_unread trivial hpos hmax⟩, .ofBytes [], 0, 0, rfl, ?_⟩
  exact ⟨rfl, fun _ => Slot.grow_drop_ofBytes (Nat.zero_le _), Nat.zero_le _, hmax, Nat.le_refl _,
    rfl⟩

theorem buffering_agrees {bufferSize : Nat} (hsize : bufferSize ≤ maxCapacity) :
    ∃ m c, buffering source bufferSize = .ok m ∧ Cursor.buffering source bufferSize = .ok c ∧
      m.Agrees c := by
  have hpos := Cursor.maxCapacity_pos
  have hcapacity : max bufferSize 1 ≤ maxCapacity := by omega
  have hunread : Agrees _ (Cursor.unread source (max bufferSize 1)) :=
    agrees_unread (by omega) hcapacity
  obtain ⟨b, m, c, hm, hc, hagrees⟩ := hunread.peek 0
  refine ⟨m, c, ?_, ?_, hagrees⟩
  · rw [buffering, require_eq hcapacity]
    change ((holding source _ none).peek 0 >>= fun p => .ok p.2) = _
    rw [hm]
    rfl
  · rw [Cursor.buffering]
    simp only [if_neg (Nat.not_lt.2 hcapacity), hc, Except.map]

/-- A machine opens on every source, with any first buffer that can be had. A buffer that is handed
over has to be one: no larger than its capacity, and that no larger than any can be. -/
theorem ofSource_agrees {options : Options} (hsize : options.bufferSize ≤ maxCapacity)
    (hwhole : ∀ buffer rest, Source.takeAll source = (some buffer, rest) →
      buffer.size ≤ buffer.capacity ∧ buffer.capacity ≤ maxCapacity) :
    ∃ m c, ofSource source options = .ok m ∧ Cursor.ofSource source options = .ok c ∧
      m.Agrees c := by
  unfold ofSource Cursor.ofSource
  by_cases hadopt : options.adopt = true
  · rw [if_pos hadopt, if_pos hadopt]
    rcases htake : Source.takeAll source with ⟨buffer | buffer, rest⟩
    · exact buffering_agrees hsize
    · obtain ⟨hfits, hmax⟩ := hwhole buffer rest htake
      exact ⟨_, _, rfl, rfl, agrees_adopting hfits hmax⟩
  · rw [if_neg hadopt, if_neg hadopt]
    exact buffering_agrees hsize

end Opening
end Registers
end StreamCursor
