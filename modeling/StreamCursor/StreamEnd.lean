import StreamCursor.Text.Quoted
import StreamCursor.Text.Record

/-! Why a stream delivers no more bytes. -/

namespace StreamCursor

inductive FailureKind where
  | notFound
  | permissionDenied
  | connectionRefused
  | connectionReset
  | connectionAborted
  | notConnected
  | brokenPipe
  | alreadyExists
  | wouldBlock
  | invalidInput
  | invalidData
  | timedOut
  | writeZero
  | interrupted
  | unsupported
  | unexpectedEof
  | outOfMemory
  | other
  deriving DecidableEq

namespace FailureKind

def all : List FailureKind :=
  [notFound, permissionDenied, connectionRefused, connectionReset, connectionAborted,
    notConnected, brokenPipe, alreadyExists, wouldBlock, invalidInput, invalidData, timedOut,
    writeZero, interrupted, unsupported, unexpectedEof, outOfMemory, other]

def name : FailureKind → String
  | notFound => "NotFound"
  | permissionDenied => "PermissionDenied"
  | connectionRefused => "ConnectionRefused"
  | connectionReset => "ConnectionReset"
  | connectionAborted => "ConnectionAborted"
  | notConnected => "NotConnected"
  | brokenPipe => "BrokenPipe"
  | alreadyExists => "AlreadyExists"
  | wouldBlock => "WouldBlock"
  | invalidInput => "InvalidInput"
  | invalidData => "InvalidData"
  | timedOut => "TimedOut"
  | writeZero => "WriteZero"
  | interrupted => "Interrupted"
  | unsupported => "Unsupported"
  | unexpectedEof => "UnexpectedEof"
  | outOfMemory => "OutOfMemory"
  | other => "Other"

def ofName? (name : String) : Option FailureKind := all.find? (·.name = name)

/-- The text of a failure that brings no message of its own. -/
def text : FailureKind → String
  | notFound => "entity not found"
  | permissionDenied => "permission denied"
  | connectionRefused => "connection refused"
  | connectionReset => "connection reset"
  | connectionAborted => "connection aborted"
  | notConnected => "not connected"
  | brokenPipe => "broken pipe"
  | alreadyExists => "entity already exists"
  | wouldBlock => "operation would block"
  | invalidInput => "invalid input parameter"
  | invalidData => "invalid data"
  | timedOut => "timed out"
  | writeZero => "write zero"
  | interrupted => "operation interrupted"
  | unsupported => "unsupported"
  | unexpectedEof => "unexpected end of file"
  | outOfMemory => "out of memory"
  | other => "other error"

end FailureKind

/-- A failure of the device behind a stream. -/
structure DeviceFailure where
  kind : FailureKind
  message : Option String
  deriving DecidableEq

namespace DeviceFailure

def text (failure : DeviceFailure) : String := failure.message.getD failure.kind.text

def describe (failure : DeviceFailure) : String :=
  match failure.message with
  | none => "Kind(" ++ failure.kind.name ++ ")"
  | some message =>
      Text.record "Custom" [("kind", failure.kind.name), ("error", Text.quoted message)]

end DeviceFailure

inductive StreamEnd where
  /-- There are no more bytes. -/
  | eof
  | device (failure : DeviceFailure)
  /-- The source gave up, for the reason it states. -/
  | source (message : String)
  deriving DecidableEq

namespace StreamEnd

def isEof : StreamEnd → Bool
  | eof => true
  | _ => false

def isInterruption : StreamEnd → Bool
  | device failure => failure.kind = .interrupted
  | _ => false

/-- Device failures are told apart by their kind alone. -/
def alike : StreamEnd → StreamEnd → Bool
  | eof, eof => true
  | device a, device b => a.kind = b.kind
  | source a, source b => a = b
  | _, _ => false

def text : StreamEnd → String
  | eof => "end of stream"
  | device failure => failure.text
  | source message => "source error: " ++ message

def describe : StreamEnd → String
  | eof => "Eof"
  | device failure => "Io(" ++ failure.describe ++ ")"
  | source message => "Source(" ++ Text.quoted message ++ ")"

end StreamEnd
end StreamCursor
