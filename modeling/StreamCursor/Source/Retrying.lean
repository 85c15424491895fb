import StreamCursor.Source.Script

/-! A device whose reads are repeated for as long as they are interrupted. -/

namespace StreamCursor

structure Retrying where
  device : Script
  /-- How many reads were asked for, however often the device was tried. -/
  calls : Nat := 0

namespace Retrying

/-- The device once every read that is interrupted next has been tried with the slot. -/
def pastInterruptions (slot : Slot) : List ScriptStep → Script → Script
  | .fail cause :: steps, device =>
      if cause.isInterruption then pastInterruptions slot steps { device.noting slot with steps }
      else device
  | _, device => device

def read (source : Retrying) (slot : Slot) : Reply × Retrying :=
  let (reply, device) := (pastInterruptions slot source.device.steps source.device).read slot
  (reply, ⟨device, source.calls + 1⟩)

instance : Source Retrying where
  read := read

end Retrying
end StreamCursor
