/-!
# UTF-8

Texts are lists of characters and wire data are lists of bytes; this file passes between the two.
Decoding is a machine that reads one byte at a time. Between characters it is in state `start`;
inside a character it remembers how many continuation bytes are owed, the range the next one must
lie in (the narrowed ranges after `E0`, `ED`, `F0` and `F4` rule out overlong forms, surrogates and
values past the last code point) and the bits read so far. A byte that cannot continue the current
character ends it as malformed and is then read again as a first byte, so that a malformed sequence
is reported once for each of its longest correct beginnings.

The strict reader `decode?` refuses a text with a malformed part; the lossy reader `decodeLossy`
puts the replacement character in its place.
-/

namespace Gateway

/-- Data as it travels: a list of bytes. -/
abbrev Bytes := List UInt8

namespace Utf8

/-! ### Encoding -/

/-- The one to four bytes of a character. -/
def encodeChar (c : Char) : Bytes :=
  let n := c.toNat
  if n < 0x80 then [n.toUInt8]
  else if n < 0x800 then [(0xC0 + n / 0x40).toUInt8, (0x80 + n % 0x40).toUInt8]
  else if n < 0x10000 then
    [(0xE0 + n / 0x1000).toUInt8, (0x80 + n / 0x40 % 0x40).toUInt8, (0x80 + n % 0x40).toUInt8]
  else
    [(0xF0 + n / 0x40000).toUInt8, (0x80 + n / 0x1000 % 0x40).toUInt8,
      (0x80 + n / 0x40 % 0x40).toUInt8, (0x80 + n % 0x40).toUInt8]

/-- The bytes of a text. -/
def encode (s : List Char) : Bytes := s.flatMap encodeChar

/-- The bytes of a string. -/
def ofString (s : String) : Bytes := encode s.toList

/-! ### Decoding -/

/-- Where the decoder stands between two bytes. -/
inductive State where
  /-- Between characters. -/
  | start
  /-- Inside a character: `owed + 1` bytes are missing, the next one lies between `low` and `high`,
  and `bits` holds the value read so far. -/
  | inside (owed low high bits : Nat)

/-- Reads a byte from between characters: what it completes, and the state after it. -/
def first (b : Nat) : List (Option Char) × State :=
  if b < 0x80 then ([some (Char.ofNat b)], .start)
  else if b < 0xC2 then ([none], .start)
  else if b < 0xE0 then ([], .inside 0 0x80 0xBF (b - 0xC0))
  else if b = 0xE0 then ([], .inside 1 0xA0 0xBF 0)
  else if b = 0xED then ([], .inside 1 0x80 0x9F 0xD)
  else if b < 0xF0 then ([], .inside 1 0x80 0xBF (b - 0xE0))
  else if b = 0xF0 then ([], .inside 2 0x90 0xBF 0)
  else if b < 0xF4 then ([], .inside 2 0x80 0xBF (b - 0xF0))
  else if b = 0xF4 then ([], .inside 2 0x80 0x8F 4)
  else ([none], .start)

/-- Reads one byte: the characters and malformed parts (`none`) it completes, and the next state. -/
def step : State → Nat → List (Option Char) × State
  | .start, b => first b
  | .inside owed low high bits, b =>
    if low ≤ b ∧ b ≤ high then
      let value := bits * 0x40 + b % 0x40
      match owed with
      | 0 => ([some (Char.ofNat value)], .start)
      | owed + 1 => ([], .inside owed 0x80 0xBF value)
    else
      let after := first b
      (none :: after.1, after.2)

/-- The characters and malformed parts of the bytes that follow a state. -/
def decodeFrom : State → Bytes → List (Option Char)
  | .start, [] => []
  | .inside .., [] => [none]
  | s, b :: r => (step s b.toNat).1 ++ decodeFrom (step s b.toNat).2 r

/-- The text of well-formed bytes. -/
def decode? (bs : Bytes) : Option (List Char) := (decodeFrom .start bs).mapM id

/-- The text of any bytes, with U+FFFD for each malformed part. -/
def decodeLossy (bs : Bytes) : List Char :=
  (decodeFrom .start bs).map (·.getD (Char.ofNat 0xFFFD))

/-- The string of well-formed bytes. -/
def toString? (bs : Bytes) : Option String := (decode? bs).map String.ofList

end Utf8

end Gateway
