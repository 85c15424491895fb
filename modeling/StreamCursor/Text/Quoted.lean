import StreamCursor.Text.Printable
import StreamCursor.Text.Utf8

/-! Quoted texts. What stands between the quotes is ASCII or plain characters; anything else is
named by an escape. -/

namespace StreamCursor.Text

def hexDigits (n : Nat) : String := String.ofList (Nat.toDigits 16 n)

def byteEscape (b : UInt8) : String :=
  (if b < 0x10 then "\\x0" else "\\x") ++ hexDigits b.toNat

def charEscape (c : Char) : String := "\\u\x7b" ++ hexDigits c.toNat ++ "\x7d"

/-- The short escapes that characters and bytes have in common. -/
def shortEscape? (c : Char) : Option String :=
  if c = '\x00' then some "\\0"
  else if c = '\t' then some "\\t"
  else if c = '\n' then some "\\n"
  else if c = '\r' then some "\\r"
  else if c = '"' then some "\\\""
  else if c = '\\' then some "\\\\"
  else none

def escapeChar (c : Char) : String :=
  (shortEscape? c).getD (if isPlain c then String.singleton c else charEscape c)

/-- In a byte string an apostrophe is escaped too, and ASCII controls are shown as bytes. -/
def escapeByte (b : UInt8) : String :=
  let c := Char.ofNat b.toNat
  if c = '\x27' then "\\'"
  else (shortEscape? c).getD
    (if 0x20 ≤ b ∧ b < 0x7F then String.singleton c else byteEscape b)

def Piece.escape : Piece → String
  | .char c => if c.toNat < 0x80 then escapeByte c.toNat.toUInt8 else escapeChar c
  | .broken bytes => String.join (bytes.map byteEscape)

def inQuotes (content : String) : String := "\"" ++ content ++ "\""

def quoted (text : String) : String := inQuotes (String.join (text.toList.map escapeChar))

/-- A byte string as text, with the bytes that are no characters shown one by one. -/
def quotedBytes (bytes : Bytes) : String :=
  inQuotes (String.join ((pieces bytes).map Piece.escape))

end StreamCursor.Text
