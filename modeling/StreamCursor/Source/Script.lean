import StreamCursor.Source

/-! Scripts: sources whose every read is laid down in advance, the misbehaving ones included. A
script also keeps the slots that it was handed. -/

namespace StreamCursor

/-- One read of a script. -/
inductive ScriptStep where
  /-- Delivers the bytes, in several reads if one slot cannot hold them. -/
  | data (bytes : Bytes)
  /-- Writes what fits of the bytes and claims any count. -/
  | claim (bytes : Bytes) (count : Nat)
  | nothing
  | fail (cause : StreamEnd)
  deriving DecidableEq

structure Script where
  steps : List ScriptStep
  /-- The byte with which the unused rest of a slot is filled, if it is. -/
  scribble : Option UInt8 := none
  /-- What `takeAll` hands over once. -/
  whole : Option Bytes := none
  /-- The slots of all reads, the newest first. -/
  slots : List Slot := []

namespace Script

/-- What the script writes when it puts `bytes` into the slot. -/
def writing (script : Script) (bytes : Bytes) (slot : Slot) : Bytes :=
  match script.scribble with
  | none => bytes
  | some b => bytes ++ List.replicate (slot.size - bytes.length) b

def noting (script : Script) (slot : Slot) : Script :=
  { script with slots := slot :: script.slots }

def read (script : Script) (slot : Slot) : Reply × Script :=
  let noted := script.noting slot
  match script.steps with
  | [] => (⟨[], .ok 0⟩, noted)
  | .data bytes :: steps =>
      let fitting := bytes.take slot.size
      let rest := bytes.drop slot.size
      (⟨script.writing fitting slot, .ok fitting.length⟩,
        { noted with steps := if rest.isEmpty then steps else .data rest :: steps })
  | .claim bytes count :: steps =>
      (⟨script.writing (bytes.take slot.size) slot, .ok count⟩, { noted with steps })
  | .nothing :: steps => (⟨[], .ok 0⟩, { noted with steps })
  | .fail cause :: steps => (⟨[], .error cause⟩, { noted with steps })

instance : Source Script where
  read := read
  takeAll script :=
    (script.whole.map fun bytes => ⟨bytes, bytes.length⟩, { script with whole := none })

end Script
end StreamCursor
