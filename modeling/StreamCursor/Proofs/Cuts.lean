import Mathlib.Algebra.Order.Floor.Div
import StreamCursor.Cuts
import StreamCursor.Proofs.Source.Serving

/-! Byte strings that are cut into even parts. Main statement: nothing is lost at a cut, only the
last part may be shorter than the others, and slots that hold a whole part receive one part per
read. Since the size of a part is rounded up, there may be fewer parts than were asked for. -/

namespace StreamCursor

theorem ceilDiv_pos {n parts : Nat} (hparts : 0 < parts) (hn : 0 < n) : 0 < n ⌈/⌉ parts :=
  Nat.div_pos (by omega) hparts

/-- One part taken away leaves one part less. -/
theorem sub_ceilDiv_add_one {n size : Nat} (hsize : 0 < size) (hn : 0 < n) :
    (n - size) ⌈/⌉ size + 1 = n ⌈/⌉ size := by
  -- Both sides are at most `k` just if `k` parts hold all `n` bytes, so that nothing is divided.
  refine eq_of_forall_ge_iff fun k => ?_
  rw [ceilDiv_le_iff_le_mul hsize]
  cases k with
  | zero => omega
  | succ k =>
    rw [Nat.add_le_add_iff_right, ceilDiv_le_iff_le_mul hsize, Nat.mul_succ,
      Nat.sub_le_iff_le_add]

/-- Parts of the size that `parts` parts would have are no more than `parts`. -/
theorem ceilDiv_ceilDiv_le {n parts : Nat} (hparts : 0 < parts) (hn : 0 < n) :
    n ⌈/⌉ (n ⌈/⌉ parts) ≤ parts := by
  have hcover : n ≤ parts * (n ⌈/⌉ parts) := (ceilDiv_le_iff_le_mul hparts).1 le_rfl
  rw [ceilDiv_le_iff_le_mul (ceilDiv_pos hparts hn)]
  rwa [Nat.mul_comm]

namespace Bytes

variable {size parts : Nat} {bytes part : Bytes}

theorem partsOf_nil (size : Nat) : partsOf size [] = [] := by
  rw [partsOf, if_pos (.inr rfl)]

theorem nil_notMem_partsOf (size : Nat) (bytes : Bytes) : [] ∉ partsOf size bytes := by
  fun_induction partsOf size bytes with
  | case1 => exact List.not_mem_nil
  | case2 bytes h ih =>
    rw [List.mem_cons, not_or]
    exact ⟨fun hnil => h (List.take_eq_nil_iff.1 hnil.symm), ih⟩

theorem length_le_of_mem_partsOf (hpart : part ∈ partsOf size bytes) : part.length ≤ size := by
  fun_induction partsOf size bytes with
  | case1 => cases hpart
  | case2 bytes h ih =>
    rcases List.mem_cons.1 hpart with rfl | hpart
    · exact List.length_take_le ..
    · exact ih hpart

/-- A part that another one follows is full. -/
theorem length_of_mem_dropLast_partsOf (hpart : part ∈ (partsOf size bytes).dropLast) :
    part.length = size := by
  fun_induction partsOf size bytes with
  | case1 => cases hpart
  | case2 bytes h ih =>
    by_cases hlast : partsOf size (bytes.drop size) = []
    · rw [hlast] at hpart
      cases hpart
    · rw [List.dropLast_cons_of_ne_nil hlast] at hpart
      rcases List.mem_cons.1 hpart with rfl | hpart
      · have hrest : bytes.drop size ≠ [] := fun hnil => hlast (hnil ▸ partsOf_nil size)
        rw [Ne, List.drop_eq_nil_iff] at hrest
        exact List.length_take_of_le (by omega)
      · exact ih hpart

theorem length_partsOf (size : Nat) (bytes : Bytes) :
    (partsOf size bytes).length = bytes.length ⌈/⌉ size := by
  fun_induction partsOf size bytes with
  | case1 bytes h =>
    rcases h with rfl | rfl
    · rw [ceilDiv_zero, List.length_nil]
    · exact (zero_ceilDiv size).symm
  | case2 bytes h ih =>
    rw [not_or] at h
    rw [List.length_cons, ih, List.length_drop]
    exact sub_ceilDiv_add_one (Nat.pos_of_ne_zero h.1) (List.length_pos_iff.2 h.2)

theorem evenParts_of_pos (hparts : 0 < parts) (bytes : Bytes) :
    bytes.evenParts parts = .ok (partsOf (bytes.length ⌈/⌉ parts) bytes) :=
  if_neg (Nat.ne_of_gt hparts)

theorem evenParts_eq_error_iff {fault : Fault} :
    bytes.evenParts parts = .error fault ↔ parts = 0 ∧ fault = .noParts := by
  rcases Nat.eq_zero_or_pos parts with rfl | hparts
  · rw [evenParts, if_pos rfl, Except.error.injEq, eq_comm]
    exact (and_iff_right rfl).symm
  · rw [evenParts_of_pos hparts]
    exact iff_of_false nofun fun h => Nat.ne_of_gt hparts h.1

/-- No byte is lost, also where no part has any room because there are no bytes. -/
theorem flatten_partsOf_ceilDiv (hparts : 0 < parts) (bytes : Bytes) :
    (partsOf (bytes.length ⌈/⌉ parts) bytes).flatten = bytes := by
  cases bytes with
  | nil => rw [partsOf_nil, List.flatten_nil]
  | cons b bytes => exact flatten_partsOf (ceilDiv_pos hparts (Nat.succ_pos _)) _

theorem length_partsOf_ceilDiv_le (hparts : 0 < parts) (bytes : Bytes) :
    (partsOf (bytes.length ⌈/⌉ parts) bytes).length ≤ min parts bytes.length := by
  cases bytes with
  | nil => rw [partsOf_nil]; exact Nat.zero_le _
  | cons b bytes =>
    have hlength : 0 < (b :: bytes).length := Nat.succ_pos _
    have hsize := ceilDiv_pos hparts hlength
    rw [length_partsOf, le_min_iff]
    refine ⟨ceilDiv_ceilDiv_le hparts hlength, ?_⟩
    rw [ceilDiv_le_iff_le_mul hsize]
    exact Nat.le_mul_of_pos_left _ hsize

end Bytes

theorem Reply.delivered_exactly {bytes : Bytes} {slot : Slot} (h : bytes.length ≤ slot.size) :
    (exactly bytes).delivered slot = bytes := by
  have hdelivered := delivered_exactly_take bytes slot
  rwa [List.take_of_length_le h] at hdelivered

namespace Packets

variable {source : Packets} {slot : Slot} {slots : List Slot} {packets : List Bytes}
  {count : Nat} {r : Recorder Packets}

/-- A slot with room for every packet takes the next one whole, or learns that there is none. -/
theorem read_of_room (hfailure : source.failure = none)
    (hroom : ∀ packet ∈ source.queue, packet.length ≤ slot.size) :
    source.read slot = (.exactly (source.queue.head?.getD []),
      { source with reads := source.reads + 1, queue := source.queue.tail }) := by
  rcases source with ⟨_ | ⟨packet, queue⟩, failure, reads⟩
  · subst hfailure
    exact read_of_nil rfl
  · have hpacket : packet.length ≤ slot.size := hroom packet List.mem_cons_self
    rw [read_of_cons rfl, List.take_of_length_le hpacket, List.drop_of_length_le hpacket]
    rfl

/-- How far packets are delivered after `count` reads if every read took one of them whole. -/
structure ServedWhole (packets : List Bytes) (count : Nat) (r : Recorder Packets) : Prop where
  queue_eq : r.source.queue = packets.drop count
  failure_eq : r.source.failure = none
  stream_eq : r.stream = (packets.take count).flatten

namespace ServedWhole

theorem read_eq (h : ServedWhole packets count r)
    (hroom : ∀ packet ∈ packets, packet.length ≤ slot.size) :
    r.source.read slot = (.exactly (packets[count]?.getD []),
      { r.source with reads := r.source.reads + 1, queue := packets.drop (count + 1) }) := by
  have hqueue : ∀ packet ∈ r.source.queue, packet.length ≤ slot.size := fun packet hpacket =>
    hroom packet (List.mem_of_mem_drop (h.queue_eq ▸ hpacket))
  rw [read_of_room h.failure_eq hqueue, h.queue_eq, List.head?_drop, List.tail_drop]

theorem delivered_eq (h : ServedWhole packets count r)
    (hroom : ∀ packet ∈ packets, packet.length ≤ slot.size) :
    (r.source.read slot).1.delivered slot = packets[count]?.getD [] := by
  rw [h.read_eq hroom]
  refine Reply.delivered_exactly ?_
  cases hpacket : packets[count]? with
  | none => exact Nat.zero_le _
  | some packet => exact hroom packet (List.mem_of_getElem? hpacket)

theorem read (h : ServedWhole packets count r)
    (hroom : ∀ packet ∈ packets, packet.length ≤ slot.size) :
    ServedWhole packets (count + 1) (Source.read r slot).2 where
  queue_eq := congrArg (fun served => served.2.queue) (h.read_eq hroom)
  failure_eq := (failure_read r.source slot).trans h.failure_eq
  stream_eq := by
    have hnext : (packets[count]?.toList).flatten = packets[count]?.getD [] := by
      cases packets[count]? with
      | none => rfl
      | some packet => exact List.flatten_singleton
    rw [Recorder.stream_read, h.stream_eq, List.take_add_one, List.flatten_append, hnext]
    exact congrArg _ (h.delivered_eq hroom)

theorem foldl_answer (h : ServedWhole packets count r)
    (hroom : ∀ slot ∈ slots, ∀ packet ∈ packets, packet.length ≤ slot.size) :
    ServedWhole packets (count + slots.length)
      ((slots.map Request.read).foldl Request.answer r) := by
  induction slots generalizing count r with
  | nil => exact h
  | cons slot slots ih =>
    obtain ⟨hslot, hslots⟩ := List.forall_mem_cons.1 hroom
    rw [List.length_cons, Nat.add_comm slots.length, ← Nat.add_assoc]
    exact ih (h.read hslot) hslots

end ServedWhole

theorem servedWhole (hnonempty : [] ∉ packets)
    (hroom : ∀ slot ∈ slots, ∀ packet ∈ packets, packet.length ≤ slot.size) :
    ServedWhole packets slots.length (serve packets (slots.map .read)) := by
  have hqueue : (ofList packets).queue = packets := by
    refine List.filter_eq_self.2 fun packet hpacket => ?_
    cases packet with
    | nil => exact absurd hpacket hnonempty
    | cons b bytes => rfl
  have hstart : ServedWhole packets 0 { source := ofList packets } := ⟨hqueue, rfl, rfl⟩
  have hserved := hstart.foldl_answer hroom
  rwa [Nat.zero_add] at hserved

end Packets

namespace Bytes

/-- A byte string is cut into even parts unless no part is asked for. Read into slots with room for
a part, they arrive one by one, and behind the last of them is the end. -/
theorem evenParts_arrive_whole (bytes : Bytes) (parts : Nat) :
    (∀ fault, bytes.evenParts parts = .error fault ↔ parts = 0 ∧ fault = .noParts) ∧
      (0 < parts → ∃ packets, bytes.evenParts parts = .ok packets ∧
        let size := bytes.length ⌈/⌉ parts
        packets.flatten = bytes ∧
          [] ∉ packets ∧
          (∀ packet ∈ packets.dropLast, packet.length = size) ∧
          (∀ packet ∈ packets.getLast?, packet.length ≤ size) ∧
          packets.length = bytes.length ⌈/⌉ size ∧
          packets.length ≤ min parts bytes.length ∧
          (packets = [] ↔ bytes = []) ∧
          ∀ slots : List Slot, (∀ slot ∈ slots, size ≤ slot.size) →
            let r := Packets.serve packets (slots.map .read)
            r.stream = (packets.take slots.length).flatten ∧
              (packets.length ≤ slots.length → r.stream = bytes) ∧
              ∀ slot : Slot, size ≤ slot.size →
                let reply := (r.source.read slot).1
                let packet := packets[slots.length]?.getD []
                reply.outcome = .ok packet.length ∧ reply.delivered slot = packet) := by
  refine ⟨fun fault => evenParts_eq_error_iff, fun hparts => ?_⟩
  refine ⟨_, evenParts_of_pos hparts bytes, ?_⟩
  intro size
  have hflatten : (partsOf size bytes).flatten = bytes := flatten_partsOf_ceilDiv hparts bytes
  have hnonempty := nil_notMem_partsOf size bytes
  refine ⟨hflatten, hnonempty, fun packet => length_of_mem_dropLast_partsOf,
    fun packet hlast => length_le_of_mem_partsOf (List.mem_of_getLast? hlast),
    length_partsOf size bytes, length_partsOf_ceilDiv_le hparts bytes, ⟨fun hnil => ?_, ?_⟩,
    fun slots hslots => ?_⟩
  · rw [← hflatten, hnil, List.flatten_nil]
  · rintro rfl
    exact partsOf_nil size
  · have hroom (slot : Slot) (hslot : size ≤ slot.size) :
        ∀ packet ∈ partsOf size bytes, packet.length ≤ slot.size := fun packet hpacket =>
      (length_le_of_mem_partsOf hpacket).trans hslot
    have hserved := Packets.servedWhole hnonempty fun slot hslot => hroom slot (hslots slot hslot)
    refine ⟨hserved.stream_eq, fun hall => ?_, fun slot hslot => ⟨?_, ?_⟩⟩
    · rw [hserved.stream_eq, List.take_of_length_le hall, hflatten]
    · rw [hserved.read_eq (hroom slot hslot)]
      rfl
    · exact hserved.delivered_eq (hroom slot hslot)

/-- Four parts of five bytes would have two bytes each, so there are three. Slots of two and of four
bytes take one each, and the fourth read finds nothing. -/
theorem evenParts_arrive_whole_rounded :
    let slots := [Slot.blank 2, .blank 4, .blank 2]
    evenParts [1, 2, 3, 4, 5] 4 = .ok [[1, 2], [3, 4], [5]] ∧
      (Packets.serve [[1, 2], [3, 4], [5]] (slots.map .read)).stream = [1, 2, 3, 4, 5] ∧
      ((Packets.serve [[1, 2], [3, 4], [5]] (slots.map .read)).source.read
        (.blank 2)).1.outcome = .ok 0 := by
  intro slots
  obtain ⟨packets, hcut, -, -, -, -, -, -, -, harrive⟩ :=
    (evenParts_arrive_whole [1, 2, 3, 4, 5] 4).2 (by decide)
  have hparts : evenParts [1, 2, 3, 4, 5] 4 = .ok [[1, 2], [3, 4], [5]] := by
    simp [evenParts, partsOf]
  cases hcut.symm.trans hparts
  obtain ⟨-, hall, hnext⟩ := harrive slots (by decide)
  exact ⟨hparts, hall (by decide), (hnext (.blank 2) (by decide)).1⟩

end Bytes
end StreamCursor
