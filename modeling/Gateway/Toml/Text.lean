import Gateway.Text.Digits
/-!
# Strings of TOML

The four kinds of strings. A basic string stands between double quotes and knows escapes; a literal
string stands between single quotes and knows none. With three quotes on each side a string may run
over several lines; a line break right after the opening quotes is dropped, and up to two quotes may
stand directly before the closing ones.

A reader takes the text after the opening quotes and yields the characters and the rest.
-/

namespace Gateway.Toml

/-- Whether a character may stand in a comment or a literal string: a tab or no control. -/
def isPlain (c : Char) : Bool := c = '\t' || (0x20 ≤ c.toNat && c.toNat != 0x7F)

/-- Whether a character is blank within a line. -/
def isBlank (c : Char) : Bool := c = ' ' || c = '\t'

/-- What follows a line break, if the text starts with one. -/
def afterBreak? : List Char → Option (List Char)
  | '\n' :: r => some r
  | '\r' :: '\n' :: r => some r
  | _ => none

/-- What follows all blanks and line breaks at the start. -/
def skipBreaks : List Char → List Char
  | '\r' :: '\n' :: r => skipBreaks r
  | c :: r => if isBlank c || c = '\n' then skipBreaks r else c :: r
  | [] => []

/-- The character with a given number, unless the number is a surrogate or too large. -/
def scalar? (n : Nat) : Option Char :=
  if n < 0xD800 ∨ (0xDFFF < n ∧ n < 0x110000) then some (Char.ofNat n) else none

/-- Reads the character of an escape with a fixed number of hexadecimal digits. -/
def hexEscape? (width : Nat) (s : List Char) : Option (Char × List Char) :=
  let ds := s.take width
  if ds.length = width then ((Text.value? 16 ds).bind scalar?).map fun c => (c, s.drop width)
  else none

/-- Reads what follows the backslash of an escape. -/
def escape? : List Char → Option (Char × List Char)
  | 'b' :: r => some (Char.ofNat 8, r)
  | 't' :: r => some ('\t', r)
  | 'n' :: r => some ('\n', r)
  | 'f' :: r => some (Char.ofNat 12, r)
  | 'r' :: r => some ('\r', r)
  | '"' :: r => some ('"', r)
  | '\\' :: r => some ('\\', r)
  | 'u' :: r => hexEscape? 4 r
  | 'U' :: r => hexEscape? 8 r
  | _ => none

/-- What follows a backslash that ends a line: the break and all blanks and breaks after it. -/
def afterContinuation? (s : List Char) : Option (List Char) :=
  (afterBreak? (s.dropWhile isBlank)).map skipBreaks

/-- Reads a literal string on one line. -/
def literal? (s : List Char) : Option (List Char × List Char) :=
  let body := s.takeWhile fun c => isPlain c && c != '\''
  match s.drop body.length with
  | '\'' :: r => some (body, r)
  | _ => none

/-- Reads a basic string on one line; each step takes at least one of `fuel` characters. -/
def basicWith? : Nat → List Char → Option (List Char × List Char)
  | 0, _ => none
  | fuel + 1, s =>
    match s with
    | '"' :: r => some ([], r)
    | '\\' :: r => do
      let (c, r) ← escape? r
      let (cs, r) ← basicWith? fuel r
      return (c :: cs, r)
    | c :: r =>
      if isPlain c then (basicWith? fuel r).map fun p => (c :: p.1, p.2) else none
    | [] => none

/-- Reads the quotes at the start of a text inside a string of several lines: how many of them
belong to the string, and whether the string ends. Fewer than three belong to it; of more, the last
three of up to five end it. -/
def quoteRun (quote : Char) (s : List Char) : Nat × Bool :=
  let n := (s.takeWhile (· = quote)).length
  if n < 3 then (n, false) else (min (n - 3) 2, true)

/-- Reads a string of several lines, with escapes or without. -/
def linesWith? (quote : Char) (escapes : Bool) : Nat → List Char → Option (List Char × List Char)
  | 0, _ => none
  | fuel + 1, s =>
    match s with
    | [] => none
    | c :: r =>
      if c = quote then
        let (n, ends) := quoteRun quote s
        if ends then some (List.replicate n quote, s.drop (n + 3))
        else (linesWith? quote escapes fuel (s.drop n)).map fun p =>
          (List.replicate n quote ++ p.1, p.2)
      else if escapes && c = '\\' then
        match afterContinuation? r with
        | some r => linesWith? quote escapes fuel r
        | none => do
          let (d, r) ← escape? r
          let (ds, r) ← linesWith? quote escapes fuel r
          return (d :: ds, r)
      else match afterBreak? s with
        | some r => (linesWith? quote escapes fuel r).map fun p => ('\n' :: p.1, p.2)
        | none =>
          if isPlain c then (linesWith? quote escapes fuel r).map fun p => (c :: p.1, p.2) else none

/-- Reads a string of several lines after its opening quotes. -/
def lines? (quote : Char) (escapes : Bool) (s : List Char) : Option (List Char × List Char) :=
  linesWith? quote escapes (s.length + 1) ((afterBreak? s).getD s)

/-- Reads a string on one line after its opening quote. -/
def line? (quote : Char) (s : List Char) : Option (List Char × List Char) :=
  if quote = '"' then basicWith? (s.length + 1) s else literal? s

/-- Reads a string of any kind from its opening quote on. -/
def string? : List Char → Option (List Char × List Char)
  | '"' :: '"' :: '"' :: r => lines? '"' true r
  | '\'' :: '\'' :: '\'' :: r => lines? '\'' false r
  | '"' :: r => line? '"' r
  | '\'' :: r => line? '\'' r
  | _ => none

end Gateway.Toml
