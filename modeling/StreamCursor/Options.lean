import StreamCursor.Text.Record

/-! How a cursor is to buffer its stream. -/

namespace StreamCursor

def defaultBufferSize : Nat := 4096

structure Options where
  /-- The capacity of the first buffer, which should hold a token and its lookahead. Zero counts
  as one. -/
  bufferSize : Nat := defaultBufferSize
  /-- Whether to take over the whole content of a source that already has it in memory. -/
  adopt : Bool := true
  deriving DecidableEq

def Options.describe (options : Options) : String :=
  Text.record "LexerOptions"
    [("buffer_size", toString options.bufferSize),
      ("adopt_source_bytes", Text.truth options.adopt)]

end StreamCursor
