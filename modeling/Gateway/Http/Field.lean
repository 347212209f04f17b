import Gateway.Text.Split
/-!
# Header fields

A message carries a list of fields. Names are kept in lower case, since they are compared without
regard to case; values are bytes. A name may occur several times, and the order of the fields of one
name matters.
-/

namespace Gateway.Http

/-- The fields of a message, in order: lower-case names with their values. -/
abbrev Fields := List (String × Bytes)

namespace Fields

/-- The values of a name, in order. -/
def values (name : String) (fs : Fields) : List Bytes :=
  (fs.filter fun f => f.1 == name).map fun f => f.2

/-- The first value of a name. -/
def first? (name : String) (fs : Fields) : Option Bytes := (values name fs).head?

/-- The fields of all other names. -/
def without (name : String) (fs : Fields) : Fields := fs.filter fun f => f.1 != name

/-- The fields with one value for a name in place of those it had. -/
def replace (name : String) (value : Bytes) (fs : Fields) : Fields :=
  without name fs ++ [(name, value)]

end Fields

/-! ### Legal names and values -/

/-- Whether a character may occur in a token: a letter, a digit or one of the listed marks. -/
def isTokenChar (c : Char) : Bool :=
  c.isAlphanum ||
    ['!', '#', '$', '%', '&', '\'', '*', '+', '-', '.', '^', '_', Char.ofNat 0x60, '|',
      '~'].contains c

/-- Whether a text is a token. -/
def isToken (s : List Char) : Bool := !s.isEmpty && s.all isTokenChar

/-- The lower-case form of a field name, if it is one. -/
def fieldName? (s : String) : Option String :=
  if isToken s.toList then some (String.ofList (s.toList.map Char.toLower)) else none

/-- Whether a byte may occur in a field value: a tab or anything but a control. -/
def isValueByte (b : UInt8) : Bool := (0x20 ≤ b && b != 0x7F) || b = 9

/-- Whether bytes are a legal field value. -/
def isValue (bs : Bytes) : Bool := bs.all isValueByte

/-- Whether a byte is visible in ASCII, or a blank or tab. -/
def isVisibleByte (b : UInt8) : Bool := (0x20 ≤ b && b < 0x7F) || b = 9

/-- The text of a value that is all visible ASCII, blanks and tabs. -/
def visible? (bs : Bytes) : Option (List Char) :=
  if bs.all isVisibleByte then some (bs.map fun b => Char.ofNat b.toNat) else none

end Gateway.Http
