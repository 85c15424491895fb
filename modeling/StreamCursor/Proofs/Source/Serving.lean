import StreamCursor.Proofs.Source.Finite
import StreamCursor.Proofs.Source.Recorder

/-! Packets that are read into slots of any sizes. Main statement: each read brings the rest of one
packet, or as much of it as the slot holds, so that the packets arrive in order and without loss,
and the end is reported behind the last of them and at no other place. -/

namespace StreamCursor

theorem Reply.drop_leaves_exactly_take (bytes : Bytes) (slot : Slot) :
    ((exactly (bytes.take slot.size)).leaves slot).bytes.drop (bytes.take slot.size).length =
      slot.bytes.drop (bytes.take slot.size).length := by
  have hfits : (bytes.take slot.size).length ≤ slot.size := List.length_take_le ..
  rw [leaves, exactly, Slot.bytes_overwrite, List.take_of_length_le hfits, List.drop_left]

namespace Packets

/-- What may be asked of packets. -/
inductive Request where
  | read (slot : Slot)
  | failWith (message : String)
  deriving DecidableEq

namespace Request

def slot? : Request → Option Slot
  | read slot => some slot
  | failWith _ => none

def message? : Request → Option String
  | read _ => none
  | failWith message => some message

def answer (r : Recorder Packets) : Request → Recorder Packets
  | read slot => (Source.read r slot).2
  | failWith message => { r with source := r.source.failWith message }

end Request

/-- The packets after what was asked of them, with all reads on record. -/
def serve (packets : List Bytes) (requests : List Request) : Recorder Packets :=
  requests.foldl Request.answer { source := ofList packets }

/-- What a read is answered behind the last packet. The last message counts. -/
def conclusionAfter (requests : List Request) : Except StreamEnd Nat :=
  match (requests.filterMap Request.message?).getLast? with
  | some message => .error (.source message)
  | none => .ok 0

/-- How many slots of `width` bytes the packets fill if no slot holds bytes of two packets. -/
def slotsFor (width : Nat) (packets : List Bytes) : Nat :=
  (packets.map fun packet => (packet.length + width - 1) / width).sum

@[simp] theorem failure_read (source : Packets) (slot : Slot) :
    (source.read slot).2.failure = source.failure := by
  unfold read
  split <;> rfl

/-- How far packets are delivered if `stream` was brought and `queue` is still to come. -/
inductive Progress (packets : List Bytes) : (stream : Bytes) → (queue : List Bytes) → Prop where
  | within {before : List Bytes} {packet : Bytes} {after : List Bytes} {cut : Nat}
      (hpackets : packets = before ++ packet :: after) (hcut : cut < packet.length) :
      Progress packets (before.flatten ++ packet.take cut)
        (packet.drop cut :: after.filter (!·.isEmpty))
  | done : Progress packets packets.flatten []

namespace Progress

variable {packets before after queue : List Bytes} {stream : Bytes}

/-- In front of the packets in `after`, the first of them that is not empty is the next one. -/
theorem next (hpackets : packets = before ++ after) :
    Progress packets before.flatten (after.filter (!·.isEmpty)) := by
  induction after generalizing before with
  | nil =>
    rw [List.append_nil] at hpackets
    subst hpackets
    exact .done
  | cons packet after ih =>
    cases packet with
    | nil =>
      have hnext : Progress packets (before ++ [[]]).flatten (after.filter (!·.isEmpty)) :=
        ih (by simp [hpackets])
      simpa using hnext
    | cons b bytes =>
      have hwithin : Progress packets (before.flatten ++ (b :: bytes).take 0)
          ((b :: bytes).drop 0 :: after.filter (!·.isEmpty)) :=
        .within hpackets (Nat.succ_pos _)
      simpa using hwithin

theorem append_flatten (h : Progress packets stream queue) :
    stream ++ queue.flatten = packets.flatten := by
  cases h with
  | @within before packet after cut hpackets hcut =>
    have hafter : (after.filter (!·.isEmpty)).flatten = after.flatten :=
      flatten_queue_ofList after
    rw [hpackets, List.flatten_cons, hafter, List.flatten_append, List.flatten_cons,
      List.append_assoc, ← List.append_assoc (packet.take cut), List.take_append_drop]
  | done => exact List.append_nil _

/-- A packet that is not yet read to its end is still queued. -/
theorem queue_eq_nil_iff (h : Progress packets stream queue) :
    queue = [] ↔ stream = packets.flatten := by
  have happend := h.append_flatten
  cases h with
  | @within before packet after cut hpackets hcut =>
    refine ⟨nofun, fun hall => ?_⟩
    have hrest := List.append_right_eq_self.1 (happend.trans hall.symm)
    rw [List.flatten_cons, List.append_eq_nil_iff, List.drop_eq_nil_iff] at hrest
    omega
  | done => exact ⟨fun _ => rfl, fun _ => rfl⟩

variable {source : Packets}

/-- A read goes on with the packet where the last one left it. -/
theorem read (h : Progress packets stream source.queue) (slot : Slot) :
    Progress packets (stream ++ (source.read slot).1.delivered slot)
      (source.read slot).2.queue := by
  generalize hqueue : source.queue = queue at h
  cases h with
  | done =>
    rw [read_of_nil hqueue, delivered_conclusion, List.append_nil, hqueue]
    exact .done
  | @within before packet after cut hpackets hcut =>
    rw [read_of_cons hqueue, Reply.delivered_exactly_take, List.append_assoc, ← List.take_add,
      List.drop_drop]
    split
    next hempty =>
      have hall : packet.length ≤ cut + slot.size :=
        List.drop_eq_nil_iff.1 (List.isEmpty_iff.1 hempty)
      have hnext : Progress packets (before ++ [packet]).flatten (after.filter (!·.isEmpty)) :=
        next (by simpa using hpackets)
      rw [List.take_of_length_le hall]
      simpa using hnext
    next hrest =>
      rw [List.isEmpty_iff, List.drop_eq_nil_iff] at hrest
      exact .within hpackets (by omega)

/-- What a read brings as long as something is to come. -/
theorem read_part (h : Progress packets stream source.queue) (hmore : stream ≠ packets.flatten)
    (slot : Slot) :
    ∃ before packet after cut,
      packets = before ++ packet :: after ∧
        stream = before.flatten ++ packet.take cut ∧
        (source.read slot).1 = .exactly ((packet.drop cut).take slot.size) ∧
        (0 < slot.size → (packet.drop cut).take slot.size ≠ []) ∧
        (((packet.drop cut).take slot.size).length < slot.size →
          cut + ((packet.drop cut).take slot.size).length = packet.length) := by
  generalize hqueue : source.queue = queue at h
  cases h with
  | done => exact absurd rfl hmore
  | @within before packet after cut hpackets hcut =>
    refine ⟨before, packet, after, cut, hpackets, rfl, by rw [read_of_cons hqueue],
      fun hslot hnil => ?_, fun hshort => ?_⟩
    · rw [List.take_eq_nil_iff, List.drop_eq_nil_iff] at hnil
      omega
    · rw [List.length_take, List.length_drop] at hshort ⊢
      omega

end Progress

/-- Behind what it delivers, a read leaves the slot as it was. -/
theorem drop_leaves_read (source : Packets) (slot : Slot) :
    ((source.read slot).1.leaves slot).bytes.drop ((source.read slot).1.delivered slot).length =
      slot.bytes.drop ((source.read slot).1.delivered slot).length := by
  cases hqueue : source.queue with
  | nil =>
    rw [read_of_nil hqueue, delivered_conclusion, Reply.leaves, Slot.bytes_overwrite,
      List.take_nil]
    rfl
  | cons packet queue =>
    rw [read_of_cons hqueue, Reply.delivered_exactly_take]
    exact Reply.drop_leaves_exactly_take packet slot

theorem queue_read_of_empty {source : Packets} (hnonempty : [] ∉ source.queue) {slot : Slot}
    (hslot : slot.size = 0) : (source.read slot).2.queue = source.queue := by
  cases hqueue : source.queue with
  | nil => rw [read_of_nil hqueue, hqueue]
  | cons packet queue =>
    have hpacket : packet ≠ [] := fun hnil => hnonempty (hqueue ▸ hnil ▸ List.mem_cons_self)
    rw [read_of_cons hqueue, hslot, List.drop_zero, if_neg (by rwa [List.isEmpty_iff])]

/-- A read that finds room yields no byte exactly if the queue is empty. -/
theorem outcome_read_iff {source : Packets} (hnonempty : [] ∉ source.queue) {slot : Slot}
    (hslot : 0 < slot.size) :
    (∀ count, (source.read slot).1.outcome ≠ .ok (count + 1)) ↔ source.queue = [] := by
  cases hqueue : source.queue with
  | nil =>
    refine iff_of_true (fun count => ?_) rfl
    rw [read_of_nil hqueue]
    rcases source with ⟨queue, _ | message, reads⟩
    · exact nofun
    · exact nofun
  | cons packet queue =>
    refine iff_of_false (fun hnone => ?_) nofun
    have hpacket : packet.length ≠ 0 := fun hnil =>
      hnonempty (hqueue ▸ List.length_eq_zero_iff.1 hnil ▸ List.mem_cons_self)
    have hlength : (packet.take slot.size).length ≠ 0 := by
      rw [List.length_take]
      omega
    obtain ⟨count, hcount⟩ := Nat.exists_eq_succ_of_ne_zero hlength
    refine hnone count ?_
    rw [read_of_cons hqueue]
    exact congrArg Except.ok hcount

/-- What is known of packets after what was asked of them. -/
structure Served (packets : List Bytes) (requests : List Request) (r : Recorder Packets) :
    Prop where
  progress : Progress packets r.stream r.source.queue
  nonempty : [] ∉ r.source.queue
  failure_eq : r.source.failure = (requests.filterMap Request.message?).getLast?
  slots_eq : r.reads.map Prod.fst = requests.filterMap Request.slot?
  reads_eq : r.source.reads = r.reads.length

namespace Served

variable {packets : List Bytes} {requests : List Request} {r : Recorder Packets}

theorem read (h : Served packets requests r) (slot : Slot) :
    Served packets (requests ++ [.read slot]) (Source.read r slot).2 where
  progress := by
    rw [Recorder.stream_read]
    exact h.progress.read slot
  nonempty := mem_queue_read h.nonempty
  failure_eq := by
    rw [List.filterMap_append, List.filterMap_cons_none rfl, List.filterMap_nil, List.append_nil]
    exact (failure_read r.source slot).trans h.failure_eq
  slots_eq := by
    rw [List.filterMap_append, ← h.slots_eq]
    exact List.map_append
  reads_eq := by
    refine (reads_read r.source slot).trans ?_
    rw [h.reads_eq]
    change _ = (r.reads ++ [(slot, (r.source.read slot).1)]).length
    rw [List.length_append, List.length_singleton]

theorem failWith (h : Served packets requests r) (message : String) :
    Served packets (requests ++ [.failWith message])
      (Request.answer r (.failWith message)) where
  progress := h.progress
  nonempty := h.nonempty
  failure_eq := by
    rw [List.filterMap_append]
    exact List.getLast?_concat.symm
  slots_eq := by
    rw [List.filterMap_append, List.filterMap_cons_none rfl, List.filterMap_nil, List.append_nil]
    exact h.slots_eq
  reads_eq := h.reads_eq

theorem foldl_answer (h : Served packets requests r) (more : List Request) :
    Served packets (requests ++ more) (more.foldl Request.answer r) := by
  induction more generalizing requests r with
  | nil => rwa [List.append_nil]
  | cons request more ih =>
    rw [List.append_cons]
    cases request with
    | read slot => exact ih (h.read slot)
    | failWith message => exact ih (h.failWith message)

theorem read_of_end (h : Served packets requests r) (hend : r.stream = packets.flatten)
    (slot : Slot) : (r.source.read slot).1 = ⟨[], conclusionAfter requests⟩ := by
  rw [read_of_nil (h.progress.queue_eq_nil_iff.2 hend), conclusion, h.failure_eq]
  rfl

end Served

theorem foldl_answer_of_nil {r : Recorder Packets} (h : r.source.queue = [])
    (requests : List Request) : (requests.foldl Request.answer r).source.queue = [] := by
  induction requests generalizing r with
  | nil => exact h
  | cons request requests ih =>
    cases request with
    | failWith message => exact ih h
    | read slot => exact ih ((congrArg (fun served => served.2.queue) (read_of_nil h)).trans h)

theorem served (packets : List Bytes) (requests : List Request) :
    Served packets requests (serve packets requests) := by
  have hprogress : Progress packets [].flatten (packets.filter (!·.isEmpty)) := .next rfl
  have hstart : Served packets [] { source := ofList packets } :=
    ⟨hprogress, fun hnil => queue_ofList_ne_nil hnil rfl, rfl, rfl, rfl⟩
  exact hstart.foldl_answer requests

section Width

variable {width : Nat} {packets : List Bytes} {source : Packets}

theorem slotsFor_ofList (hwidth : 0 < width) (packets : List Bytes) :
    slotsFor width (ofList packets).queue = slotsFor width packets := by
  induction packets with
  | nil => rfl
  | cons packet packets ih =>
    cases packet with
    | nil =>
      have hnone : (0 + width - 1) / width = 0 := Nat.div_eq_of_lt (by omega)
      refine ih.trans ?_
      rw [slotsFor, slotsFor, List.map_cons, List.sum_cons, List.length_nil, hnone, Nat.zero_add]
    | cons b bytes => exact congrArg (_ + ·) ih

theorem slotsFor_eq_zero_iff (hwidth : 0 < width) (hnonempty : [] ∉ packets) :
    slotsFor width packets = 0 ↔ packets = [] := by
  cases packets with
  | nil => exact ⟨fun _ => rfl, fun _ => rfl⟩
  | cons packet packets =>
    refine ⟨fun hzero => ?_, nofun⟩
    rw [slotsFor, List.map_cons, List.sum_cons] at hzero
    have hpacket : packet.length ≠ 0 := fun hnil =>
      hnonempty (List.length_eq_zero_iff.1 hnil ▸ List.mem_cons_self)
    have hslots : 0 < (packet.length + width - 1) / width := Nat.div_pos (by omega) hwidth
    omega

/-- Every read of a queue that is not empty saves one slot. -/
theorem slotsFor_read (hnonempty : [] ∉ source.queue) {slot : Slot} (hslot : 0 < slot.size) :
    slotsFor slot.size (source.read slot).2.queue = slotsFor slot.size source.queue - 1 := by
  cases hqueue : source.queue with
  | nil => rw [read_of_nil hqueue, hqueue]; rfl
  | cons packet queue =>
    have hpacket : packet.length ≠ 0 := fun hnil =>
      hnonempty (hqueue ▸ List.length_eq_zero_iff.1 hnil ▸ List.mem_cons_self)
    rw [read_of_cons hqueue]
    split
    next hall =>
      rw [List.isEmpty_iff, List.drop_eq_nil_iff] at hall
      have hone : (packet.length + slot.size - 1) / slot.size = 1 := by
        rw [Nat.div_eq_iff hslot]
        omega
      rw [slotsFor, slotsFor, List.map_cons, List.sum_cons, hone, Nat.add_sub_cancel_left]
    next hrest =>
      rw [List.isEmpty_iff, List.drop_eq_nil_iff] at hrest
      have hmore : (packet.length + slot.size - 1) / slot.size =
          (packet.length - slot.size + slot.size - 1) / slot.size + 1 := by
        rw [← Nat.add_div_right _ hslot]
        congr 1
        omega
      rw [slotsFor, slotsFor, List.map_cons, List.map_cons, List.sum_cons, List.sum_cons,
        List.length_drop, hmore, Nat.add_right_comm, Nat.add_sub_cancel]

theorem slotsFor_foldl_answer (hwidth : 0 < width) {r : Recorder Packets}
    (hnonempty : [] ∉ r.source.queue) {requests : List Request}
    (hall : ∀ slot ∈ requests.filterMap Request.slot?, slot.size = width) :
    slotsFor width (requests.foldl Request.answer r).source.queue =
      slotsFor width r.source.queue - (requests.filterMap Request.slot?).length := by
  induction requests generalizing r with
  | nil => rfl
  | cons request requests ih =>
    cases request with
    | failWith message => exact ih hnonempty hall
    | read slot =>
      have hslots : (Request.read slot :: requests).filterMap Request.slot? =
          slot :: requests.filterMap Request.slot? := rfl
      rw [hslots] at hall ⊢
      obtain ⟨hslot, hall⟩ := List.forall_mem_cons.1 hall
      refine (ih (mem_queue_read hnonempty) hall).trans ?_
      subst hslot
      have hread := slotsFor_read hnonempty hwidth
      change slotsFor slot.size (r.source.read slot).2.queue - _ = _
      rw [hread, List.length_cons, Nat.sub_sub, Nat.add_comm 1]

end Width

/-- Packets arrive one after the other and each in as many parts as the slots demand. What a read
brings is the rest of one packet or as much of it as fits, and behind the last packet every read is
answered with the conclusion. -/
theorem serve_delivers (packets : List Bytes) (requests : List Request) :
    let r := serve packets requests
    r.stream ++ r.source.queue.flatten = packets.flatten ∧
      r.reads.map Prod.fst = requests.filterMap Request.slot? ∧
      r.source.reads = r.reads.length ∧
      (∀ slot : Slot,
        let reply := (r.source.read slot).1
        let part := reply.delivered slot
        (reply.leaves slot).bytes.drop part.length = slot.bytes.drop part.length ∧
          (slot.size = 0 → (r.source.read slot).2.queue = r.source.queue) ∧
          (r.stream ≠ packets.flatten → ∃ before packet after cut,
            packets = before ++ packet :: after ∧
              r.stream = before.flatten ++ packet.take cut ∧
              part = (packet.drop cut).take slot.size ∧
              reply.outcome = .ok part.length ∧
              (0 < slot.size → part ≠ []) ∧
              (part.length < slot.size → cut + part.length = packet.length))) ∧
      (r.stream = packets.flatten → ∀ more slot,
        ((serve packets (requests ++ more)).source.read slot).1 =
          ⟨[], conclusionAfter (requests ++ more)⟩) ∧
      ∀ width > 0, (∀ slot ∈ r.reads.map Prod.fst, slot.size = width) →
        ∀ slot : Slot, slot.size = width →
          ((∀ count, (r.source.read slot).1.outcome ≠ .ok (count + 1)) ↔
            slotsFor width packets ≤ r.source.reads) := by
  have h := served packets requests
  refine ⟨h.progress.append_flatten, h.slots_eq, h.reads_eq, fun slot => ?_,
    fun hend more slot => ?_, fun width hwidth hall slot hslot => ?_⟩
  · refine ⟨drop_leaves_read .., queue_read_of_empty h.nonempty, fun hmore => ?_⟩
    obtain ⟨before, packet, after, cut, hpackets, hstream, hread, hnonempty, hshort⟩ :=
      h.progress.read_part hmore slot
    have hpart := Reply.delivered_exactly_take (packet.drop cut) slot
    rw [← hread] at hpart
    refine ⟨before, packet, after, cut, hpackets, hstream, hpart, ?_⟩
    rw [hpart]
    exact ⟨congrArg Reply.outcome hread, hnonempty, hshort⟩
  · have hqueue := foldl_answer_of_nil (h.progress.queue_eq_nil_iff.2 hend) more
    have hmore := h.foldl_answer more
    rw [serve, List.foldl_append]
    exact hmore.read_of_end (hmore.progress.queue_eq_nil_iff.1 hqueue) slot
  · rw [outcome_read_iff h.nonempty (hslot ▸ hwidth), ← slotsFor_eq_zero_iff hwidth h.nonempty]
    rw [h.slots_eq] at hall
    have hcount := slotsFor_foldl_answer hwidth (served packets []).nonempty hall
    have hreads : (serve packets requests).source.reads =
        (requests.filterMap Request.slot?).length := by
      rw [h.reads_eq, ← h.slots_eq, List.length_map]
    change slotsFor width (serve packets requests).source.queue =
      slotsFor width (ofList packets).queue - _ at hcount
    rw [hcount, slotsFor_ofList hwidth, hreads]
    exact Nat.sub_eq_zero_iff_le

/-- Two packets and an empty one through slots of two bytes: the third read brings the last byte,
and the fourth the message. -/
theorem serve_delivers_three_packets :
    let requests := [Request.read (.blank 2), .failWith "gone", .read (.blank 2),
      .read (.blank 2)]
    (serve [[1, 2, 3], [], [4]] requests).stream = [1, 2, 3, 4] ∧
      slotsFor 2 [[1, 2, 3], [], [4]] = 3 ∧
      (∀ count, ((serve [[1, 2, 3], [], [4]] requests).source.read (.blank 2)).1.outcome ≠
        .ok (count + 1)) ∧
      ((serve [[1, 2, 3], [], [4]] requests).source.read (.blank 2)).1 =
        ⟨[], .error (.source "gone")⟩ := by
  intro requests
  obtain ⟨-, -, -, -, hend, hwidth⟩ := serve_delivers [[1, 2, 3], [], [4]] requests
  have hstream : (serve [[1, 2, 3], [], [4]] requests).stream = [1, 2, 3, 4] := by decide
  refine ⟨hstream, by decide, ?_, hend hstream [] (.blank 2)⟩
  exact (hwidth 2 (by decide) (by decide) (.blank 2) rfl).2 (by decide)

end Packets
end StreamCursor
