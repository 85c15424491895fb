import StreamCursor.Proofs.Cursor.Ending
import StreamCursor.Proofs.Source.Delivery

/-! Where a cursor stands in a fixed byte string that it reads. Main statements: every operation on
the cursor is an operation on the token behind it and on the rest of the bytes before it, whatever
is buffered of them. -/

namespace StreamCursor
namespace Delivery

open Cursor (Faithful)

variable {σ : Type} [Source σ]

/-- The cursor has come through `token`, which begins at `offset` of the data, and has `rest` before
it. It has looked for the next `seen` bytes. -/
structure Stands (d : Delivery σ) (offset : Nat) (token rest : Bytes) (seen : Nat) (c : Cursor σ) :
    Prop where
  /-- Data that fills the largest buffer leaves no room to find the end behind it. -/
  short : d.data.length < maxCapacity
  faithful : ∃ stream freed, c.Faithful d.toFeed stream freed
  tokenOffset_eq : c.tokenOffset = offset
  mark_eq : c.window.mark = token.length
  data_eq : d.data.drop offset = token ++ rest
  looked : c.isExhausted ∨ seen ≤ c.window.ahead.size

/-- The cursor has `rest` before it, and everything up to there is committed. -/
def Fresh (d : Delivery σ) (rest : Bytes) (seen : Nat) : Cursor σ → Prop :=
  d.Stands (d.data.length - rest.length) [] rest seen

variable {d : Delivery σ} {c : Cursor σ} {stream token rest : Bytes} {offset seen freed k n : Nat}

theorem fresh_front (h : c.Faithful d.toFeed stream freed) (hfront : c.AtFront)
    (hshort : d.data.length < maxCapacity) : d.Fresh d.data 0 c where
  short := hshort
  faithful := ⟨stream, freed, h⟩
  tokenOffset_eq := by rw [Nat.sub_self, hfront.tokenOffset]
  mark_eq := hfront.mark
  data_eq := by rw [Nat.sub_self, List.drop_zero, List.nil_append]
  looked := .inr (Nat.zero_le _)

namespace Stands

theorem offset_eq (h : d.Stands offset token rest seen c) : c.offset = offset + token.length := by
  rw [Cursor.offset_eq, h.tokenOffset_eq, h.mark_eq]

theorem length_data (h : d.Stands offset token rest seen c) :
    offset + token.length + rest.length = d.data.length := by
  obtain ⟨stream, freed, hc⟩ := h.faithful
  have hle := Nat.le_trans hc.offset_le (d.length_stream_le hc)
  have hlength := congrArg List.length h.data_eq
  rw [h.offset_eq] at hle
  rw [List.length_drop, List.length_append] at hlength
  omega

theorem rest_eq (h : d.Stands offset token rest seen c) : d.data.drop c.offset = rest := by
  rw [h.offset_eq, ← List.drop_drop, h.data_eq, List.drop_left]

theorem token_eq (h : d.Stands offset token rest seen c) : c.token = token := by
  obtain ⟨stream, freed, hc⟩ := h.faithful
  have hslice := d.slice?_data hc
  have hdata := h.length_data
  rw [h.tokenOffset_eq, h.offset_eq, Bytes.slice?, if_pos (by omega), Nat.add_sub_cancel_left,
    h.data_eq, List.take_left] at hslice
  exact (Option.some.inj hslice).symm

/-- What the window has ahead is at the front of the rest, and is all of it once the source has
ended. -/
theorem size_ahead (h : d.Stands offset token rest seen c) :
    c.window.ahead.size ≤ rest.length ∧
      (c.isExhausted → c.window.ahead.size = rest.length) := by
  obtain ⟨stream, freed, hc⟩ := h.faithful
  have hsize := hc.offset_add_size
  have hle := d.length_stream_le hc
  have hdata := h.length_data
  rw [h.offset_eq] at hsize
  refine ⟨by omega, fun hended => ?_⟩
  rw [(d.stream_eq hc hended).1] at hsize
  omega

theorem mono (h : d.Stands offset token rest seen c) (hle : n ≤ seen) :
    d.Stands offset token rest n c :=
  { h with looked := h.looked.imp_right (Nat.le_trans hle) }

/-- A peek at a byte of the rest, or right behind it, finds that byte or the end. -/
theorem peek (h : d.Stands offset token rest seen c) (hk : k ≤ rest.length) :
    ∃ later, c.peek k = .ok (rest[k]?.getD 0, later) ∧
      d.Stands offset token rest (max seen (k + 1)) later := by
  obtain ⟨stream, freed, hc⟩ := h.faithful
  obtain ⟨later, part, hpeek, hlater, hreach⟩ := d.peek_data hc (Nat.le_of_lt h.short) k
  have hdata := h.length_data
  have hoffset := h.offset_eq
  have hshort := h.short
  have hposition : c.window.position ≤ c.offset := Nat.le_add_left ..
  have hsize := hlater.size_ahead hc
  refine ⟨later, ?_, hshort, ⟨_, _, hlater.faithful⟩,
    hlater.samePlace.tokenOffset.trans h.tokenOffset_eq, hlater.samePlace.mark.trans h.mark_eq,
    h.data_eq, ?_⟩
  · rw [hpeek, ← h.rest_eq, List.getElem?_drop]
  · rcases h.looked with hended | hlooked
    · obtain ⟨b, hsame⟩ := Cursor.peek_of_exhausted hended k
      cases hpeek.symm.trans hsame
      exact .inl hended
    · refine (hreach (by omega)).imp_right fun hlt => ?_
      have hstream := hlater.faithful.offset_add_size
      rw [hlater.samePlace.offset] at hstream
      omega

/-- Over bytes that it has looked for, a cursor moves freely. It stops at the end. -/
theorem move (h : d.Stands offset token rest seen c) (hn : n ≤ seen) :
    d.Stands offset (token ++ rest.take n) (rest.drop n) (seen - n) (c.move n) := by
  obtain ⟨stream, freed, hc⟩ := h.faithful
  obtain ⟨hle, hall⟩ := h.size_ahead
  have hmark : (c.window.move n).mark = c.window.mark + min n c.window.ahead.size :=
    Window.mark_forward _ n
  have hstop : (c.window.move n).stop = c.window.stop :=
    Window.stop_of_bytes (Window.bytes_move ..)
  have hstart : (c.window.move n).start = c.window.start := Window.start_move ..
  have hahead : (c.window.move n).ahead.size = c.window.ahead.size - n := by
    simp only [Window.stop, Window.position] at hstop
    omega
  refine ⟨h.short, ⟨stream, freed, hc.move n⟩, ?_, ?_, ?_, ?_⟩
  · rw [Faithful.tokenOffset_move, h.tokenOffset_eq]
  · change (c.window.move n).mark = _
    rw [hmark, h.mark_eq, List.length_append, List.length_take]
    rcases h.looked with hended | hlooked
    · rw [hall hended]
    · omega
  · rw [h.data_eq, List.append_assoc, List.take_append_drop]
  · change c.isExhausted ∨ seen - n ≤ (c.window.move n).ahead.size
    rw [hahead]
    exact h.looked.imp_right (Nat.sub_le_sub_right · n)

theorem commit (h : d.Stands offset token rest seen c) : d.Fresh rest seen c.commit := by
  obtain ⟨stream, freed, hc⟩ := h.faithful
  have hdata := h.length_data
  have hoffset : d.data.length - rest.length = offset + token.length := by omega
  rw [Fresh, hoffset]
  refine ⟨h.short, ⟨stream, freed, hc.reposition (Window.bytes_commit _) _⟩, ?_, rfl, ?_, h.looked⟩
  · rw [Cursor.tokenOffset, Cursor.commit, Window.start_commit]
    exact h.offset_eq
  · rw [← List.drop_drop, h.data_eq, List.drop_left, List.nil_append]

theorem release (h : d.Stands offset token rest seen c) :
    d.Stands offset token rest seen c.release := by
  obtain ⟨stream, freed, hc⟩ := h.faithful
  exact ⟨h.short, ⟨stream, freed + c.pending, (hc.reposition rfl 0).consume c.pending⟩,
    h.tokenOffset_eq, h.mark_eq, h.data_eq, h.looked⟩

/-- A cursor that has looked at its own place sees the end just where the rest is empty. -/
theorem visibleEnd_eq (h : d.Stands offset token rest seen c) (hseen : 0 < seen) :
    c.visibleEnd = if rest = [] then some d.cause else none := by
  obtain ⟨stream, freed, hc⟩ := h.faithful
  have hsize := hc.offset_add_size
  have hdata := h.length_data
  have hoffset := h.offset_eq
  rw [d.visibleEnd_eq hc (h.looked.imp_right (by omega))]
  by_cases hrest : rest = []
  · subst hrest
    rw [List.length_nil] at hdata
    rw [if_neg (by omega), if_pos rfl]
  · have hpos := List.length_pos_iff.2 hrest
    rw [if_pos (by omega), if_neg hrest]

end Stands
end Delivery
end StreamCursor
