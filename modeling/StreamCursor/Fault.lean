/-! What makes an operation on buffers impossible. -/

namespace StreamCursor

inductive Fault where
  /-- The bytes to carry would start beyond the end of the buffer. -/
  | carryStart
  /-- More bytes are to be carried than the requested buffer holds. -/
  | carryLength
  /-- A buffer would be larger than any buffer can be. -/
  | capacity
  /-- A byte string is to be cut into no parts at all. -/
  | noParts
  deriving DecidableEq

def Fault.message : Fault → String
  | .carryStart => "carry start beyond buffer"
  | .carryLength => "carried bytes exceed requested capacity"
  | .capacity => "capacity overflow"
  | .noParts => "cannot split into zero parts"

end StreamCursor
