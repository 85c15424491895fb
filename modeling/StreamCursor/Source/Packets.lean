import StreamCursor.Source
import StreamCursor.Text.Record

/-! Packets: a source that delivers at most one packet per read, as a network does. -/

namespace StreamCursor

structure Packets where
  /-- The packets still to come. None of them is empty. -/
  queue : List Bytes
  /-- What the source ends with in place of an ordinary end. -/
  failure : Option String
  /-- How many reads were served. -/
  reads : Nat

namespace Packets

def ofList (packets : List Bytes) : Packets where
  queue := packets.filter (!·.isEmpty)
  failure := none
  reads := 0

/-- The last message counts. -/
def failWith (source : Packets) (message : String) : Packets :=
  { source with failure := some message }

/-- What the queue ends with. -/
def conclusion (source : Packets) : Except StreamEnd Nat :=
  match source.failure with
  | some message => .error (.source message)
  | none => .ok 0

/-- A packet that the slot cannot hold is cut, and its rest stays first in the queue. -/
def read (source : Packets) (slot : Slot) : Reply × Packets :=
  let served := { source with reads := source.reads + 1 }
  match source.queue with
  | [] => (⟨[], source.conclusion⟩, served)
  | packet :: queue =>
      let rest := packet.drop slot.size
      (.exactly (packet.take slot.size),
        { served with queue := if rest.isEmpty then queue else rest :: queue })

instance : Source Packets where
  read := read

/-- Reads slots of `width` bytes, at most `limit` of them, until one yields nothing. -/
def collect (width : Nat) : (limit : Nat) → Packets → Bytes × Packets
  | 0, source => ([], source)
  | limit + 1, source =>
      let slot := Slot.blank width
      let (reply, source) := source.read slot
      match reply.delivered slot with
      | [] => ([], source)
      | part =>
          let (rest, source) := collect width limit source
          (part ++ rest, source)

/-- Reads slots of `width` bytes until one yields nothing. Every other one yields a byte at
least, so the bytes in the queue bound their number. -/
def collectAll (width : Nat) (source : Packets) : Bytes × Packets :=
  collect width ((source.queue.map List.length).sum + 1) source

def describe (source : Packets) : String :=
  Text.record "Chunked"
    [("chunks", Text.bracketed (source.queue.map Text.byteList)),
      ("failure", Text.optional (source.failure.map Text.quoted)),
      ("reads", toString source.reads)]

theorem queue_ofList_ne_nil {packets : List Bytes} {packet : Bytes}
    (h : packet ∈ (ofList packets).queue) : packet ≠ [] := by
  simp only [ofList, List.mem_filter] at h
  rintro rfl
  simp at h

@[simp] theorem flatten_queue_ofList (packets : List Bytes) :
    (ofList packets).queue.flatten = packets.flatten := by
  induction packets with
  | nil => rfl
  | cons packet packets ih =>
    simp only [ofList] at ih ⊢
    cases packet <;> simp [ih]

@[simp] theorem reads_read (source : Packets) (slot : Slot) :
    (source.read slot).2.reads = source.reads + 1 := by
  unfold read
  split <;> rfl

end Packets
end StreamCursor
