/-! Sets of code points, kept as the bounds of their runs. -/

namespace StreamCursor.Text

/-- Ascending bounds: the first begins a run, the second ends it just before itself, and so on
by turns. -/
abbrev CodePointSet := List Nat

namespace CodePointSet

def contains (bounds : CodePointSet) (c : Nat) : Bool :=
  match bounds with
  | first :: stop :: rest => if c < first then false else c < stop || contains rest c
  | _ => false

end CodePointSet
end StreamCursor.Text
