import StreamCursor.Proofs.Scan

/-! The end of a stream, as a cursor learns of it and shows it. Main statements: once the stream
has ended a peek changes nothing at all, and the end is visible exactly where the cursor stands
behind all that was delivered. -/

namespace StreamCursor

namespace Reply

/-- Why the source is left alone after this reply, if it is: the source failed, or it claimed to
have delivered nothing. -/
def conclusion? (reply : Reply) : Option StreamEnd :=
  match reply.outcome with
  | .error cause => some cause
  | .ok 0 => some .eof
  | .ok (_ + 1) => none

/-- A slot with room tells a claim of nothing from any other claim. -/
theorem ending_eq_conclusion? (reply : Reply) {slot : Slot} (h : 0 < slot.size) :
    reply.ending slot = reply.conclusion? := by
  rcases reply with ⟨written, cause | count⟩
  · rfl
  · have hlength : (Reply.delivered ⟨written, .ok count⟩ slot).length = min count slot.size :=
      length_delivered ..
    cases count with
    | zero =>
      rw [Nat.zero_min, List.length_eq_zero_iff] at hlength
      simp [ending, conclusion?, hlength]
    | succ n =>
      have hne : Reply.delivered ⟨written, .ok (n + 1)⟩ slot ≠ [] := by
        rw [← List.length_pos_iff, hlength]
        omega
      simp [ending, conclusion?, hne]

end Reply

namespace Cursor

variable {σ : Type} {c d : Cursor σ}

/-- What stays as it is once the stream has ended, whatever else happens to the cursor. -/
structure Settled (c later : Cursor σ) : Prop where
  source : later.source = c.source
  ended : later.ended = c.ended
  capacity : later.capacity = c.capacity
  blocks : later.pool.blocks.size = c.pool.blocks.size
  base : later.base = c.base
  bytes : later.window.bytes = c.window.bytes

namespace Settled

theorem refl (c : Cursor σ) : c.Settled c := ⟨rfl, rfl, rfl, rfl, rfl, rfl⟩

theorem isExhausted (h : c.Settled d) (hended : c.isExhausted) : d.isExhausted := by
  rwa [Cursor.isExhausted, h.ended]

theorem reposition (h : c.Settled d) {window : Window} (hbytes : window.bytes = d.window.bytes)
    (pending : Nat) : c.Settled { d with window, pending } :=
  ⟨h.source, h.ended, h.capacity, h.blocks, h.base, hbytes.trans h.bytes⟩

theorem consume (h : c.Settled d) (n : Nat) : c.Settled (d.consume n) :=
  ⟨h.source, h.ended, h.capacity, (Pool.size_blocks_reclaimFrom ..).trans h.blocks, h.base, h.bytes⟩

end Settled

theorem peek_of_exhausted [Source σ] (h : c.isExhausted) (k : Nat) :
    ∃ b, c.peek k = .ok (b, c) := by
  unfold peek
  cases c.window.ahead.get? k with
  | some b => exact ⟨b, rfl⟩
  | none =>
    by_cases hmax : maxCapacity ≤ c.window.position + k
    · exact ⟨0, if_pos hmax⟩
    · refine ⟨(c.window.ahead.get? k).getD 0, ?_⟩
      simp only [if_neg hmax, Faithful.fill_of_done (.inl h), Except.map]

/-- No scan that only peeks finds anything to change behind the end. -/
theorem Settled.meets_peek [Source σ] (h : c.isExhausted) (k : Nat) :
    Scan.Meets (Settled c) (Scan.peek k) fun _ => Settled c := by
  intro d hd
  obtain ⟨b, hpeek⟩ := peek_of_exhausted (hd.isExhausted h) k
  exact ⟨b, d, hpeek, hd⟩

namespace Faithful

variable [Source σ] {feed : Feed σ} {stream : Bytes} {freed : Nat}

/-- The end is visible where the cursor stands behind all bytes delivered, and nowhere else. -/
theorem visibleEnd_eq_some_iff (h : c.Faithful feed stream freed) (cause : StreamEnd) :
    c.visibleEnd = some cause ↔ c.ended = some cause ∧ c.offset = stream.length := by
  have hsize := h.offset_add_size
  rw [visibleEnd, Lookahead.isEmpty]
  by_cases hahead : c.window.ahead.size = 0
  · have hend : c.offset = stream.length := by omega
    simp [hahead, hend]
  · have hend : c.offset ≠ stream.length := by omega
    simp [hahead, hend]

theorem visibleEnd_eq_none (h : c.Faithful feed stream freed) (hlt : c.offset < stream.length) :
    c.visibleEnd = none := by
  have hsize := h.offset_add_size
  rw [visibleEnd, Lookahead.isEmpty, beq_false_of_ne (by omega)]
  rfl

theorem move (h : c.Faithful feed stream freed) (n : Int) :
    (c.move n).Faithful feed stream freed :=
  h.reposition (Window.bytes_move ..) _

theorem rewind (h : c.Faithful feed stream freed) (m : Nat) :
    (c.rewind m).Faithful feed stream freed :=
  h.reposition (Window.bytes_rewind ..) _

omit [Source σ] in
@[simp] theorem tokenOffset_move (c : Cursor σ) (n : Int) :
    (c.move n).tokenOffset = c.tokenOffset :=
  congrArg (c.base + ·) (Window.start_move ..)

omit [Source σ] in
theorem tokenOffset_commit (c : Cursor σ) : c.commit.tokenOffset = c.offset :=
  congrArg (c.base + ·) (Window.start_commit c.window)

omit [Source σ] in
@[simp] theorem tokenOffset_rewind (c : Cursor σ) (m : Nat) :
    (c.rewind m).tokenOffset = c.tokenOffset :=
  congrArg (c.base + ·) (Window.start_rewind ..)

/-- A move leads to any place from the start of the token to the end of what was delivered. -/
theorem offset_move (h : c.Faithful feed stream freed) (n : Int) :
    ((c.move n).offset : Int) =
      max (c.tokenOffset : Int) (min (c.offset + n) (stream.length : Int)) := by
  have hmark := Window.mark_move c.window n
  have hsize := h.offset_add_size
  have hoffset := offset_eq c
  rw [offset_eq, tokenOffset_move]
  change ((c.tokenOffset + (c.window.move n).mark : Nat) : Int) = _
  omega

theorem offset_rewind (h : c.Faithful feed stream freed) (m : Nat) :
    (c.rewind m).offset = min (c.tokenOffset + m) stream.length := by
  have hmark := Window.mark_rewind c.window m
  have hsize := h.offset_add_size
  have hoffset := offset_eq c
  rw [offset_eq, tokenOffset_rewind]
  change c.tokenOffset + (c.window.rewind m).mark = _
  omega

theorem slice?_stream (h : c.Faithful feed stream freed) :
    stream.slice? c.tokenOffset c.offset = some c.token := by
  rw [Bytes.slice?, if_pos ⟨tokenOffset_le c, h.offset_le⟩, h.token_eq]

/-- The token can be taken to end at any place up to the end of what was delivered. -/
theorem slice?_rewind (h : c.Faithful feed stream freed) {m : Nat}
    (hm : c.tokenOffset + m ≤ stream.length) :
    stream.slice? c.tokenOffset (c.tokenOffset + m) = some (c.rewind m).take.1 := by
  have hslice := (h.rewind m).slice?_stream
  rwa [tokenOffset_rewind, h.offset_rewind, Nat.min_eq_left hm] at hslice

/-- From the start of the token every byte delivered can be peeked at. -/
theorem peek_rewind (h : c.Faithful feed stream freed) {k : Nat} {b : UInt8}
    (hb : stream[c.tokenOffset + k]? = some b) :
    (c.rewind 0).peek k = .ok (b, c.rewind 0) := by
  have hoffset : (c.rewind 0).offset = c.tokenOffset := by
    rw [h.offset_rewind, Nat.add_zero]
    exact Nat.min_eq_left h.tokenOffset_le_length
  exact (h.rewind 0).peek_of_getElem? (by rwa [hoffset])

/-- A step back hides the end, and the step forth shows it again. -/
theorem visibleEnd_move_back (h : c.Faithful feed stream freed) {cause : StreamEnd}
    (hvisible : c.visibleEnd = some cause) {n : Nat} (hpos : 0 < n) (hn : n ≤ c.mark) :
    (c.move (-n)).visibleEnd = none ∧ ((c.move (-n)).move n).visibleEnd = some cause := by
  obtain ⟨hended, hend⟩ := (h.visibleEnd_eq_some_iff cause).1 hvisible
  have hoffset : c.offset = c.tokenOffset + c.mark := offset_eq c
  have hback := h.offset_move (-n)
  have hforth := (h.move (-n)).offset_move n
  rw [tokenOffset_move] at hforth
  constructor
  · exact (h.move (-n)).visibleEnd_eq_none (by omega)
  · exact (((h.move (-n)).move n).visibleEnd_eq_some_iff cause).2 ⟨hended, by omega⟩

theorem visibleEnd_rewind_back (h : c.Faithful feed stream freed) {cause : StreamEnd}
    (hvisible : c.visibleEnd = some cause) {m : Nat} (hm : m < c.mark) :
    (c.rewind m).visibleEnd = none ∧
      ((c.rewind m).rewind c.mark).visibleEnd = some cause := by
  obtain ⟨hended, hend⟩ := (h.visibleEnd_eq_some_iff cause).1 hvisible
  have hoffset : c.offset = c.tokenOffset + c.mark := offset_eq c
  have hback := h.offset_rewind m
  have hforth := (h.rewind m).offset_rewind c.mark
  rw [tokenOffset_rewind] at hforth
  constructor
  · exact (h.rewind m).visibleEnd_eq_none (by omega)
  · exact (((h.rewind m).rewind c.mark).visibleEnd_eq_some_iff cause).2 ⟨hended, by omega⟩

end Faithful
end Cursor
end StreamCursor
