import StreamCursor.Proofs.Cursor.Ending
import StreamCursor.Proofs.Cursor.Peek

/-! Feeds of a fixed byte string. Main statements: whatever the parts in which it is delivered, a
cursor peeks at the bytes of that string, and sees the end only behind them. -/

namespace StreamCursor

/-- A feed that brings a fixed byte string, in any parts, and then ends. -/
structure Delivery (σ : Type) [Source σ] extends Feed σ where
  data : Bytes
  /-- What the source ends with. -/
  cause : StreamEnd
  isPrefix : ∀ {source : σ} {ended : Option StreamEnd} {delivered : Bytes},
    Holds source ended delivered → delivered <+: data
  complete : ∀ {source : σ} {ended : Option StreamEnd} {delivered : Bytes},
    Holds source ended delivered → ended.isSome → delivered = data ∧ ended = some cause

namespace Delivery

open Cursor (Faithful)
open Cursor.Faithful (Later)

variable {σ : Type} [Source σ] (d : Delivery σ) {c : Cursor σ} {stream : Bytes} {freed : Nat}

theorem length_stream_le (h : c.Faithful d.toFeed stream freed) :
    stream.length ≤ d.data.length :=
  (d.isPrefix h.fed).length_le

theorem stream_eq (h : c.Faithful d.toFeed stream freed) (hended : c.isExhausted) :
    stream = d.data ∧ c.ended = some d.cause :=
  d.complete h.fed hended

theorem getElem?_stream (h : c.Faithful d.toFeed stream freed) {i : Nat}
    (hi : c.isExhausted ∨ i < stream.length) : stream[i]? = d.data[i]? := by
  rcases hi with hended | hi
  · rw [(d.stream_eq h hended).1]
  · obtain ⟨rest, hrest⟩ := d.isPrefix h.fed
    rw [← hrest, List.getElem?_append_left hi]

/-- Between the start of the token and the cursor are the bytes of the data. -/
theorem slice?_data (h : c.Faithful d.toFeed stream freed) :
    d.data.slice? c.tokenOffset c.offset = some c.token := by
  obtain ⟨rest, hrest⟩ := d.isPrefix h.fed
  have hstart := Faithful.tokenOffset_le c
  have hoffset := h.offset_le
  rw [Bytes.slice?, if_pos ⟨hstart, Nat.le_trans hoffset (d.length_stream_le h)⟩, h.token_eq,
    ← hrest, List.drop_append_of_le_length (by omega), List.take_append_of_le_length]
  rw [List.length_drop]
  omega

/-- A peek shows the byte of the data, or zero past its end. Only an index that no buffer has keeps
it from looking as far as it was asked to. -/
theorem peek_data (h : c.Faithful d.toFeed stream freed) (hdata : d.data.length ≤ maxCapacity)
    (k : Nat) :
    ∃ later part, c.peek k = .ok (d.data[c.offset + k]?.getD 0, later) ∧
      Later d.toFeed c stream freed part later ∧
      (c.window.position + k < maxCapacity →
        later.isExhausted ∨ c.offset + k < (stream ++ part).length) := by
  obtain ⟨later, part, hpeek, hlater, hreach⟩ := h.peek k
  refine ⟨later, part, ?_, hlater, fun hlt => hreach.resolve_left (Nat.not_le_of_lt hlt)⟩
  rcases hreach with hmax | hseen
  -- No buffer has the index that was asked for, and the data ends before it.
  · have hstream := d.length_stream_le hlater.faithful
    have hposition : c.window.position ≤ c.offset := Nat.le_add_left ..
    rw [List.getElem?_eq_none (by omega)] at hpeek
    rw [List.getElem?_eq_none (by omega)]
    exact hpeek
  · rw [← d.getElem?_stream hlater.faithful hseen]
    exact hpeek

/-- A peek learns that the stream has ended just if it looks behind the data, at an index that a
buffer can have. At any such index it has looked as far as it was asked to. -/
theorem peek_detects (h : c.Faithful d.toFeed stream freed) (k : Nat) :
    ∃ b later part, c.peek k = .ok (b, later) ∧ Later d.toFeed c stream freed part later ∧
      (later.isExhausted ↔ c.isExhausted ∨
        c.window.position + k < maxCapacity ∧ d.data.length ≤ c.offset + k) ∧
      (c.window.position + k < maxCapacity →
        b = d.data[c.offset + k]?.getD 0 ∧
          (later.isExhausted ∨ c.offset + k < (stream ++ part).length)) := by
  obtain ⟨later, part, hpeek, hlater, hreach⟩ := h.peek k
  have hpeeked := h.toSound.peeked_of_peek hpeek
  have hsize := hlater.faithful.offset_add_size
  rw [hlater.samePlace.offset] at hsize
  refine ⟨_, later, part, hpeek, hlater, ⟨fun hended => ?_, ?_⟩, fun hindex => ?_⟩
  · by_cases hbefore : c.isExhausted
    · exact .inl hbefore
    · have hopen : c.ended = none := by simpa [Cursor.isExhausted] using hbefore
      obtain ⟨hindex, hmissing⟩ := hpeeked.reach_of_ended h.toSound hopen hended
      rw [(d.stream_eq hlater.faithful hended).1] at hsize
      exact .inr ⟨hindex, by omega⟩
  · rintro (hbefore | ⟨hindex, htarget⟩)
    · obtain ⟨b, hpeek'⟩ := Cursor.peek_of_exhausted hbefore k
      cases hpeek.symm.trans hpeek'
      exact hbefore
    · have hlength := d.length_stream_le hlater.faithful
      rcases hreach with hmax | hended | hseen
      · omega
      · exact hended
      · omega
  · have hseen := hreach.resolve_left (Nat.not_le_of_lt hindex)
    exact ⟨by rw [d.getElem?_stream hlater.faithful hseen], hseen⟩

/-- Once the cursor has looked at its own place, it sees the end exactly if it stands there. -/
theorem visibleEnd_eq (h : c.Faithful d.toFeed stream freed)
    (hseen : c.isExhausted ∨ c.offset < stream.length) :
    c.visibleEnd = if c.offset < d.data.length then none else some d.cause := by
  have hsize := h.offset_add_size
  have hle := d.length_stream_le h
  by_cases hlt : c.offset < d.data.length
  · have hahead : c.window.ahead.size ≠ 0 := by
      rcases hseen with hended | hseen
      · rw [(d.stream_eq h hended).1] at hsize
        omega
      · omega
    rw [Cursor.visibleEnd, Lookahead.isEmpty, beq_false_of_ne hahead, if_pos hlt]
    rfl
  · have hended : c.isExhausted := hseen.resolve_right (by omega)
    have hahead : c.window.ahead.size = 0 := by omega
    rw [Cursor.visibleEnd, Lookahead.isEmpty, hahead, (d.stream_eq h hended).2, if_neg hlt]
    rfl

end Delivery
end StreamCursor
