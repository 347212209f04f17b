import Gateway.Text.Digits
/-!
# Percent escapes

In a reference, a byte can be written as a percent sign and two hexadecimal digits. Each part of a
reference has a set of ASCII characters that must be written so; controls and everything beyond
ASCII always are. Reading accepts the digits in any letter case and leaves a percent sign that no
two digits follow as it is.
-/

namespace Gateway.Url

/-- Whether a character is a control of ASCII. -/
def isAsciiControl (c : Char) : Bool := c.toNat < 0x20 || c.toNat = 0x7F

/-- The characters escaped in a fragment. -/
def fragmentSet (c : Char) : Bool := [' ', '"', '<', '>', Char.ofNat 0x60].contains c

/-- The characters escaped in a query. -/
def querySet (c : Char) : Bool := [' ', '"', '#', '<', '>'].contains c

/-- The characters escaped in the query of a scheme with an authority of its own. -/
def specialQuerySet (c : Char) : Bool := querySet c || c = '\''

/-- The characters escaped in a path. -/
def pathSet (c : Char) : Bool := fragmentSet c || ['#', '?', '{', '}'].contains c

/-- The characters escaped in a user name or password. -/
def userSet (c : Char) : Bool :=
  pathSet c || ['/', ':', ';', '=', '@', '[', '\\', ']', '^', '|'].contains c

/-- The escape of a byte. -/
def escapeByte (b : UInt8) : List Char := '%' :: (Text.hexByte b).map Char.toUpper

/-- A character, escaped if it must be. -/
def escapeChar (set : Char → Bool) (c : Char) : List Char :=
  if isAsciiControl c || 0x80 ≤ c.toNat || set c then (Utf8.encodeChar c).flatMap escapeByte
  else [c]

/-- A text with the characters of a set escaped. -/
def escape (set : Char → Bool) (s : List Char) : List Char := s.flatMap (escapeChar set)

/-- The value of two hexadecimal digits, given as bytes. -/
def hexPair? (a b : UInt8) : Option UInt8 :=
  match Text.digitValue? 16 (Char.ofNat a.toNat), Text.digitValue? 16 (Char.ofNat b.toNat) with
  | some x, some y => some (x * 16 + y).toUInt8
  | _, _ => none

/-- The bytes of a text with its escapes undone. -/
def unescape : Bytes → Bytes
  | 0x25 :: a :: b :: r =>
    match hexPair? a b with
    | some v => v :: unescape r
    | none => 0x25 :: unescape (a :: b :: r)
  | b :: r => b :: unescape r
  | [] => []

end Gateway.Url
