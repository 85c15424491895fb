import StreamCursor.Proofs.Source.Delivery
import StreamCursor.Source.InMemory
import StreamCursor.Source.Packets

/-! Sources that deliver a fixed byte string and then end, in reads of any sizes. Main statement:
a cursor over such a source peeks at the byte of that string, and sees the end only behind it. -/

namespace StreamCursor

namespace Reply

/-- A source that writes what fits of its bytes delivers just that. -/
theorem delivered_exactly_take (bytes : Bytes) (slot : Slot) :
    (exactly (bytes.take slot.size)).delivered slot = bytes.take slot.size := by
  have hfits : (bytes.take slot.size).length ≤ slot.size := List.length_take_le ..
  change (slot.overwrite (bytes.take slot.size)).take (bytes.take slot.size).length = _
  rw [Slot.take_eq, Slot.bytes_overwrite, List.take_of_length_le hfits, List.take_left]

theorem ending_exactly_take (bytes : Bytes) {slot : Slot} (h : 0 < slot.size) :
    (exactly (bytes.take slot.size)).ending slot =
      if bytes.isEmpty then some .eof else none := by
  have hempty : (bytes.take slot.size).isEmpty = bytes.isEmpty := by
    cases bytes with
    | nil => rw [List.take_nil]
    | cons b bytes =>
      obtain ⟨m, hm⟩ := Nat.exists_eq_succ_of_ne_zero (Nat.ne_of_gt h)
      rw [hm]
      rfl
  unfold ending
  rw [delivered_exactly_take, hempty]
  rfl

end Reply

/-- A source that knows what it will deliver. Reads may be short, but one that finds room brings
a byte as long as there is one. -/
class Source.Finite (σ : Type) [Source σ] where
  /-- The bytes still to come. -/
  left : σ → Bytes
  /-- What the source ends with. -/
  finish : σ → StreamEnd
  /-- What the source keeps true of itself. -/
  Regular : σ → Prop
  regular_read : ∀ {source : σ} {slot : Slot}, Regular source →
    Regular (Source.read source slot).2
  finish_read : ∀ (source : σ) (slot : Slot),
    finish (Source.read source slot).2 = finish source
  delivered_append_left : ∀ (source : σ) (slot : Slot),
    (Source.read source slot).1.delivered slot ++ left (Source.read source slot).2 = left source
  ending_eq : ∀ {source : σ} {slot : Slot}, Regular source → 0 < slot.size →
    (Source.read source slot).1.ending slot =
      if (left source).isEmpty then some (finish source) else none
  takeAll : ∀ {source : σ}, Regular source →
    match Source.takeAll source with
    | (some buffer, rest) => buffer.bytes = left source ∧ finish source = .eof ∧ Regular rest
    | (none, rest) => left rest = left source ∧ finish rest = finish source ∧ Regular rest

namespace Source.Finite

variable {σ : Type} [Source σ] [Source.Finite σ] {data delivered : Bytes} {cause : StreamEnd}
  {source : σ} {ended : Option StreamEnd} {slot : Slot}

/-- The source is delivering `data`, or has delivered it and ended. -/
inductive Delivers (data : Bytes) (cause : StreamEnd) :
    σ → Option StreamEnd → Bytes → Prop where
  | going {source : σ} {delivered : Bytes} (regular : Regular source)
      (left_eq : delivered ++ left source = data) (finish_eq : finish source = cause) :
      Delivers data cause source none delivered
  | done {source : σ} : Delivers data cause source (some cause) data

theorem Delivers.read (h : Delivers data cause source none delivered) (hslot : 0 < slot.size) :
    Delivers data cause (Source.read source slot).2 ((Source.read source slot).1.ending slot)
      (delivered ++ (Source.read source slot).1.delivered slot) := by
  obtain ⟨hregular, hleft, hfinish⟩ := h
  have hsplit := delivered_append_left source slot
  rw [ending_eq hregular hslot]
  split
  next hempty =>
    have hnil : left source = [] := List.isEmpty_iff.1 hempty
    rw [hnil] at hleft hsplit
    rw [(List.append_eq_nil_iff.1 hsplit).1, hleft, hfinish]
    exact .done
  · refine .going (regular_read hregular) ?_ ((finish_read source slot).trans hfinish)
    rw [List.append_assoc, hsplit, hleft]

theorem Delivers.isPrefix (h : Delivers data cause source ended delivered) :
    delivered <+: data := by
  cases h with
  | going _ left_eq => exact ⟨left source, left_eq⟩
  | done => exact List.prefix_rfl

theorem Delivers.eq_of_ended (h : Delivers data cause source ended delivered)
    (hended : ended.isSome) : delivered = data ∧ ended = some cause := by
  cases h with
  | going => cases hended
  | done => exact ⟨rfl, rfl⟩

/-- What a cursor over a finite source is faithful to: as much of `data` as was delivered. -/
def feed (σ : Type) [Source σ] [Source.Finite σ] (data : Bytes) (cause : StreamEnd) :
    Feed σ where
  Holds := Delivers data cause
  takeAll := by
    rintro source ⟨hregular, hleft, hfinish⟩
    have htake := takeAll hregular
    split
    next buffer rest hbuffer =>
      rw [hbuffer] at htake
      obtain ⟨hbytes, heof, -⟩ := htake
      rw [List.nil_append, ← hbytes] at hleft
      rw [← hfinish, ← hleft, heof]
      exact .done
    next rest hnone =>
      rw [hnone] at htake
      obtain ⟨hrest, hcause, hregular⟩ := htake
      exact .going hregular (by rw [hrest]; exact hleft) (hcause.trans hfinish)
  read h hslot := h.read hslot

/-- A finite source brings its bytes and ends. -/
def delivery (σ : Type) [Source σ] [Source.Finite σ] (data : Bytes) (cause : StreamEnd) :
    Delivery σ where
  toFeed := feed σ data cause
  data
  cause
  isPrefix := Delivers.isPrefix
  complete := Delivers.eq_of_ended

instance : Source.Finite Bytes where
  left bytes := bytes
  finish _ := .eof
  Regular _ := True
  regular_read _ := trivial
  finish_read _ _ := rfl
  delivered_append_left bytes slot := by
    change (Reply.exactly (bytes.take slot.size)).delivered slot ++ bytes.drop slot.size = bytes
    rw [Reply.delivered_exactly_take, List.take_append_drop]
  ending_eq _ hslot := Reply.ending_exactly_take _ hslot
  takeAll _ := ⟨rfl, rfl, trivial⟩

instance : Source.Finite Buffer where
  left buffer := buffer.bytes
  finish _ := .eof
  Regular _ := True
  regular_read _ := trivial
  finish_read _ _ := rfl
  delivered_append_left buffer slot := by
    change (Reply.exactly (buffer.bytes.take slot.size)).delivered slot ++
      buffer.bytes.drop slot.size = buffer.bytes
    rw [Reply.delivered_exactly_take, List.take_append_drop]
  ending_eq _ hslot := Reply.ending_exactly_take _ hslot
  takeAll _ := ⟨rfl, rfl, trivial⟩

end Source.Finite

namespace Packets

/-- What a source of packets ends with. -/
def finish (source : Packets) : StreamEnd :=
  match source.failure with
  | some message => .source message
  | none => .eof

variable {source : Packets} {slot : Slot} {packet : Bytes} {queue : List Bytes}

theorem read_of_nil (h : source.queue = []) :
    source.read slot =
      (⟨[], source.conclusion⟩, { source with reads := source.reads + 1 }) := by
  unfold read
  rw [h]

theorem read_of_cons (h : source.queue = packet :: queue) :
    source.read slot = (.exactly (packet.take slot.size),
      { source with
        reads := source.reads + 1
        queue := if (packet.drop slot.size).isEmpty then queue
          else packet.drop slot.size :: queue }) := by
  unfold read
  rw [h]

theorem delivered_conclusion (source : Packets) (slot : Slot) :
    (⟨[], source.conclusion⟩ : Reply).delivered slot = [] := by
  rcases source with ⟨queue, _ | message, reads⟩
  · change (slot.overwrite []).take 0 = []
    rw [Slot.take_eq, List.take_zero]
  · rfl

theorem ending_conclusion (source : Packets) (slot : Slot) :
    (⟨[], source.conclusion⟩ : Reply).ending slot = some source.finish := by
  have hnone := delivered_conclusion source slot
  rcases source with ⟨queue, _ | message, reads⟩
  · unfold Reply.ending
    rw [hnone]
    rfl
  · rfl

theorem mem_queue_read (h : [] ∉ source.queue) : [] ∉ (source.read slot).2.queue := by
  cases hqueue : source.queue with
  | nil => rwa [read_of_nil hqueue]
  | cons packet queue =>
    rw [hqueue, List.mem_cons, not_or] at h
    rw [read_of_cons hqueue]
    split
    · exact h.2
    next hrest =>
      rw [List.mem_cons, not_or]
      exact ⟨fun hnil => hrest (List.isEmpty_iff.2 hnil.symm), h.2⟩

theorem delivered_append_flatten (source : Packets) (slot : Slot) :
    (source.read slot).1.delivered slot ++ (source.read slot).2.queue.flatten =
      source.queue.flatten := by
  cases hqueue : source.queue with
  | nil =>
    rw [read_of_nil hqueue, delivered_conclusion, hqueue]
    rfl
  | cons packet queue =>
    have hrest : (if (packet.drop slot.size).isEmpty then queue
        else packet.drop slot.size :: queue).flatten =
          packet.drop slot.size ++ queue.flatten := by
      split
      next hempty => rw [List.isEmpty_iff.1 hempty, List.nil_append]
      · rfl
    rw [read_of_cons hqueue, Reply.delivered_exactly_take, hrest, List.flatten_cons,
      ← List.append_assoc, List.take_append_drop]

theorem ending_read (h : [] ∉ source.queue) (hslot : 0 < slot.size) :
    (source.read slot).1.ending slot =
      if source.queue.flatten.isEmpty then some source.finish else none := by
  cases hqueue : source.queue with
  | nil =>
    rw [read_of_nil hqueue]
    exact ending_conclusion source slot
  | cons packet queue =>
    rw [hqueue, List.mem_cons, not_or] at h
    obtain ⟨b, bytes, rfl⟩ := List.exists_cons_of_ne_nil (Ne.symm h.1)
    rw [read_of_cons hqueue]
    exact Reply.ending_exactly_take _ hslot

instance : Source.Finite Packets where
  left source := source.queue.flatten
  finish := finish
  Regular source := [] ∉ source.queue
  regular_read := mem_queue_read
  finish_read source slot := by
    cases hqueue : source.queue with
    | nil => exact congrArg (fun served => finish served.2) (read_of_nil hqueue)
    | cons packet queue => exact congrArg (fun served => finish served.2) (read_of_cons hqueue)
  delivered_append_left := delivered_append_flatten
  ending_eq := ending_read
  takeAll h := ⟨rfl, rfl, h⟩

end Packets

namespace Cursor.Faithful

open Source.Finite (delivery)

variable {σ : Type} [Source σ] [Source.Finite σ] {data stream : Bytes} {cause : StreamEnd}
  {c : Cursor σ} {freed : Nat}

theorem length_stream_le (h : c.Faithful (Source.Finite.feed σ data cause) stream freed) :
    stream.length ≤ data.length :=
  (delivery σ data cause).length_stream_le h

theorem stream_eq (h : c.Faithful (Source.Finite.feed σ data cause) stream freed)
    (hended : c.isExhausted) : stream = data ∧ c.ended = some cause :=
  (delivery σ data cause).stream_eq h hended

theorem slice?_data (h : c.Faithful (Source.Finite.feed σ data cause) stream freed) :
    data.slice? c.tokenOffset c.offset = some c.token :=
  (delivery σ data cause).slice?_data h

theorem peek_data (h : c.Faithful (Source.Finite.feed σ data cause) stream freed)
    (hdata : data.length ≤ maxCapacity) (k : Nat) :
    ∃ later part, c.peek k = .ok (data[c.offset + k]?.getD 0, later) ∧
      Later (Source.Finite.feed σ data cause) c stream freed part later ∧
      (c.window.position + k < maxCapacity →
        later.isExhausted ∨ c.offset + k < (stream ++ part).length) :=
  (delivery σ data cause).peek_data h hdata k

theorem visibleEnd_eq (h : c.Faithful (Source.Finite.feed σ data cause) stream freed)
    (hseen : c.isExhausted ∨ c.offset < stream.length) :
    c.visibleEnd = if c.offset < data.length then none else some cause :=
  (delivery σ data cause).visibleEnd_eq h hseen

end Cursor.Faithful
end StreamCursor
