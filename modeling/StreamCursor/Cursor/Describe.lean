import StreamCursor.Cursor

/-! A cursor as text: where it stands and what it sees, but not its source. -/

namespace StreamCursor.Cursor

def describe {σ : Type} (c : Cursor σ) : String :=
  Text.recordExcerpt "Lexer"
    [("offset", toString c.offset),
      ("lexeme", Text.quotedBytes c.token),
      ("ahead", Text.quotedBytes c.window.ahead.bytes),
      ("err", Text.optional (c.ended.map StreamEnd.describe)),
      ("pool", c.pool.occupancy.describe)]

end StreamCursor.Cursor
