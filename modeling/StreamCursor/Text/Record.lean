import StreamCursor.Bytes

/-! One-line texts of structured values: records with named fields, lists and optional values. -/

namespace StreamCursor.Text

def commaSeparated (items : List String) : String := String.intercalate ", " items

def bracketed (items : List String) : String := "[" ++ commaSeparated items ++ "]"

def labelled (fields : List (String × String)) : List String :=
  fields.map fun (label, value) => label ++ ": " ++ value

def record (name : String) (fields : List (String × String)) : String :=
  name ++ " \x7b " ++ commaSeparated (labelled fields) ++ " \x7d"

/-- A record of which only some fields are shown. -/
def recordExcerpt (name : String) (fields : List (String × String)) : String :=
  name ++ " \x7b " ++ commaSeparated (labelled fields ++ [".."]) ++ " \x7d"

def optional : Option String → String
  | none => "None"
  | some text => "Some(" ++ text ++ ")"

def truth (b : Bool) : String := if b then "true" else "false"

/-- The bytes as a list of decimal numbers. -/
def byteList (bytes : Bytes) : String := bracketed (bytes.map fun b => toString b.toNat)

end StreamCursor.Text
