import Gateway.Text.Digits
/-!
# JSON tokens

A JSON text is cut into tokens by a machine that reads one character at a time. Numbers and words
end at the first character that cannot belong to them, and that character is read again from between
tokens, so each character is looked at once and the cutting is a recursion on the text itself.

A string token keeps its text only if every `\u` escape is a scalar value or half of a surrogate
pair; the grammar of JSON admits the other strings too, but they denote no text.
-/

namespace Gateway.Json

/-- A lexical element of JSON. -/
inductive Token where
  | openBrace
  | closeBrace
  | openBracket
  | closeBracket
  | comma
  | colon
  | null
  | bool (b : Bool)
  /-- A number written as a natural number. -/
  | nat (n : Nat)
  /-- A number with a sign, a fraction or an exponent. -/
  | otherNumber
  /-- A string; `none` if its escapes leave half of a surrogate pair alone. -/
  | text (s : Option String)
deriving DecidableEq, Repr

/-! ### Numbers -/

/-- Drops a nonempty run of digits. -/
def dropDigits? (s : List Char) : Option (List Char) :=
  match s.span Char.isDigit with
  | ([], _) => none
  | (_ :: _, r) => some r

/-- What remains of a numeral after its integer part. -/
def afterInteger? : List Char → Option (List Char)
  | '0' :: r => some r
  | s => dropDigits? s

/-- What remains after an optional fraction. -/
def afterFraction? : List Char → Option (List Char)
  | '.' :: r => dropDigits? r
  | s => some s

/-- What remains after an optional exponent. -/
def afterExponent? : List Char → Option (List Char)
  | c :: r =>
    if c = 'e' ∨ c = 'E' then
      match r with
      | '+' :: q => dropDigits? q
      | '-' :: q => dropDigits? q
      | q => dropDigits? q
    else some (c :: r)
  | [] => some []

/-- The token of a numeral: a natural number if it has neither sign, fraction nor exponent. -/
def numeral? (s : List Char) : Option Token :=
  let unsigned := match s with
    | '-' :: r => r
    | r => r
  match afterInteger? unsigned with
  | none => none
  | some [] =>
    if s.head? = some '-' then some .otherNumber
    else (Text.value? 10 s).map Token.nat
  | some r =>
    match (afterFraction? r).bind afterExponent? with
    | some [] => some .otherNumber
    | _ => none

/-- Whether a character can belong to a numeral. -/
def isNumeralChar (c : Char) : Bool :=
  c.isDigit || c = '-' || c = '+' || c = '.' || c = 'e' || c = 'E'

/-! ### Words and strings -/

/-- The token of a bare word. -/
def word? (s : List Char) : Option Token :=
  if s = ['n', 'u', 'l', 'l'] then some .null
  else if s = ['t', 'r', 'u', 'e'] then some (.bool true)
  else if s = ['f', 'a', 'l', 's', 'e'] then some (.bool false)
  else none

/-- Whether a unit is the first half of a surrogate pair. -/
def isLead (n : Nat) : Bool := 0xD800 ≤ n && n ≤ 0xDBFF

/-- Whether a unit is the second half of a surrogate pair. -/
def isTrail (n : Nat) : Bool := 0xDC00 ≤ n && n ≤ 0xDFFF

/-- The text of a list of units, in which surrogates occur in pairs. -/
def ofUnits? : List Nat → Option (List Char)
  | [] => some []
  | n :: r =>
    if isLead n then
      match r with
      | m :: q =>
        if isTrail m then
          (ofUnits? q).map (Char.ofNat (0x10000 + (n - 0xD800) * 0x400 + (m - 0xDC00)) :: ·)
        else none
      | [] => none
    else if isTrail n then none
    else (ofUnits? r).map (Char.ofNat n :: ·)

/-- The unit of a one-letter escape. -/
def escapeUnit? (c : Char) : Option Nat :=
  if c = '"' ∨ c = '\\' ∨ c = '/' then some c.toNat
  else if c = 'b' then some 8
  else if c = 'f' then some 12
  else if c = 'n' then some 10
  else if c = 'r' then some 13
  else if c = 't' then some 9
  else none

/-! ### The machine -/

/-- Where the machine stands between two characters. -/
inductive Mode where
  /-- Between tokens. -/
  | between
  /-- In a numeral. -/
  | numeral (seen : List Char)
  /-- In a word. -/
  | word (seen : List Char)
  /-- In a string. -/
  | text (units : List Nat)
  /-- After a backslash in a string. -/
  | escape (units : List Nat)
  /-- In a `\u` escape of which `digits` digits with value `unit` have been read. -/
  | unicode (units : List Nat) (digits unit : Nat)

/-- Whether a character is blank to JSON. -/
def isBlank (c : Char) : Bool := c = ' ' || c = '\t' || c = '\n' || c = '\r'

/-- Reads a character from between tokens. -/
def begin? (c : Char) : Option (List Token × Mode) :=
  if isBlank c then some ([], .between)
  else if c = '{' then some ([.openBrace], .between)
  else if c = '}' then some ([.closeBrace], .between)
  else if c = '[' then some ([.openBracket], .between)
  else if c = ']' then some ([.closeBracket], .between)
  else if c = ',' then some ([.comma], .between)
  else if c = ':' then some ([.colon], .between)
  else if c = '"' then some ([], .text [])
  else if isNumeralChar c && c != 'e' && c != 'E' then some ([], .numeral [c])
  else if c.isAlpha then some ([], .word [c])
  else none

/-- Ends a token and reads the character that ended it. -/
def endThen? (t : Option Token) (c : Char) : Option (List Token × Mode) :=
  match t, begin? c with
  | some t, some (ts, m) => some (t :: ts, m)
  | _, _ => none

/-- Reads one character: the tokens it completes and the next mode. -/
def step? : Mode → Char → Option (List Token × Mode)
  | .between, c => begin? c
  | .numeral seen, c =>
    if isNumeralChar c then some ([], .numeral (seen ++ [c])) else endThen? (numeral? seen) c
  | .word seen, c =>
    if c.isAlpha then some ([], .word (seen ++ [c])) else endThen? (word? seen) c
  | .text units, c =>
    if c = '"' then some ([.text ((ofUnits? units).map String.ofList)], .between)
    else if c = '\\' then some ([], .escape units)
    else if c.toNat < 0x20 then none
    else some ([], .text (units ++ [c.toNat]))
  | .escape units, c =>
    if c = 'u' then some ([], .unicode units 0 0)
    else (escapeUnit? c).map fun n => ([], .text (units ++ [n]))
  | .unicode units digits unit, c =>
    match Text.digitValue? 16 c with
    | none => none
    | some d =>
      if digits = 3 then some ([], .text (units ++ [unit * 16 + d]))
      else some ([], .unicode units (digits + 1) (unit * 16 + d))

/-- The tokens of the rest of a text. -/
def tokensFrom? : Mode → List Char → Option (List Token)
  | .between, [] => some []
  | .numeral seen, [] => (numeral? seen).map ([·])
  | .word seen, [] => (word? seen).map ([·])
  | _, [] => none
  | m, c :: r =>
    match step? m c with
    | none => none
    | some (ts, m') => (tokensFrom? m' r).map (ts ++ ·)

/-- The tokens of a text. -/
def tokens? (s : List Char) : Option (List Token) := tokensFrom? .between s

end Gateway.Json
