import Gateway.Toml.Value
/-!
# TOML documents

A document is read in two passes: the text becomes a list of lines with a meaning — headers and
assignments — and the lines then build the root table one after the other.

Arrays and inline tables nest, so their reader recurs through a bound; each step takes a character
or returns, and the wrapper around it supplies twice the length of the text.
-/

namespace Gateway.Toml

/-! ### Blanks -/

/-- What follows the blanks at the start. -/
def skipBlanks (s : List Char) : List Char := s.dropWhile isBlank

/-- What follows an optional comment. -/
def skipComment : List Char → List Char
  | '#' :: r => r.dropWhile isPlain
  | s => s

/-- What follows the end of a line: blanks, an optional comment, and a break or the end of all. -/
def afterLine? (s : List Char) : Option (List Char) :=
  match skipComment (skipBlanks s) with
  | [] => some []
  | r => afterBreak? r

/-- What follows blanks, comments and line breaks, none of which the text need have; each step takes
at least one of `fuel` characters. A comment must end in a break. -/
def skipLinesWith : Nat → List Char → List Char
  | 0, s => s
  | fuel + 1, s =>
    let s := skipBlanks s
    match afterBreak? (skipComment s) with
    | some r => skipLinesWith fuel r
    | none => s

/-- What follows blanks, comments and line breaks. -/
def skipLines (s : List Char) : List Char := skipLinesWith s.length s

/-! ### Keys -/

/-- Whether a character may stand in a bare key. -/
def isBareChar (c : Char) : Bool := c.isAlphanum || c = '-' || c = '_'

/-- Reads one part of a key. -/
def keyPart? : List Char → Option (String × List Char)
  | '"' :: r => (line? '"' r).map fun p => (String.ofList p.1, p.2)
  | '\'' :: r => (line? '\'' r).map fun p => (String.ofList p.1, p.2)
  | s =>
    let name := s.takeWhile isBareChar
    if name.isEmpty then none else some (String.ofList name, s.drop name.length)

/-- Reads the parts of a dotted key, with blanks around each. -/
def keyWith? : Nat → List Char → Option (List String × List Char)
  | 0, _ => none
  | fuel + 1, s => do
    let (part, r) ← keyPart? (skipBlanks s)
    match skipBlanks r with
    | '.' :: q => (keyWith? fuel q).map fun p => (part :: p.1, p.2)
    | q => some ([part], q)

/-- The number of parts that a key, or of levels that a value, must stay below. -/
def depthLimit : Nat := 80

/-- Reads a dotted key: the parts before the last, the last, and the rest. -/
def key? (s : List Char) : Option ((List String × String) × List Char) :=
  match keyWith? (s.length + 1) s with
  | some (parts, r) =>
    match parts.getLast? with
    | some name => if parts.length < depthLimit then some ((parts.dropLast, name), r) else none
    | none => none
  | none => none

/-! ### Values -/

/-- Reads a flag. -/
def flag? : List Char → Option (Toml × List Char)
  | 't' :: 'r' :: 'u' :: 'e' :: r => some (.flag true, r)
  | 'f' :: 'a' :: 'l' :: 's' :: 'e' :: r => some (.flag false, r)
  | _ => none

/-- Reads a value that holds no others. -/
def leaf? (s : List Char) : Option (Toml × List Char) :=
  match s with
  | c :: _ =>
    if c = '"' ∨ c = '\'' then (string? s).map fun p => (.text (String.ofList p.1), p.2)
    else if c = 't' ∨ c = 'f' then flag? s
    else (quantity? s).map fun p => (ofQuantity p.1, p.2)
  | [] => none

/-- Reads the equals sign after a key and the blanks around it. -/
def afterEquals? (s : List Char) : Option (List Char) :=
  match skipBlanks s with
  | '=' :: r => some (skipBlanks r)
  | _ => none

mutual

/-- Reads a value at a given number of levels below the top. -/
def valueWith? : Nat → Nat → List Char → Option (Toml × List Char)
  | 0, _, _ => none
  | fuel + 1, depth, s =>
    match s with
    | '[' :: r =>
      if depth + 1 < depthLimit then
        match skipLines r with
        | ']' :: q => some (.array [], q)
        | q => (itemsWith? fuel (depth + 1) q).map fun p => (.array p.1, p.2)
      else none
    | '{' :: r =>
      if depth + 1 < depthLimit then
        match skipBlanks r with
        | '}' :: q => some (.table .inline [], q)
        | q => (membersWith? fuel (depth + 1) [] q).map fun p => (.table .inline p.1, p.2)
      else none
    | s => leaf? s

/-- Reads the items of an array and the closing bracket; a comma may follow the last item. -/
def itemsWith? : Nat → Nat → List Char → Option (List Toml × List Char)
  | 0, _, _ => none
  | fuel + 1, depth, s => do
    let (v, r) ← valueWith? fuel depth s
    match skipLines r with
    | ']' :: q => some ([v], q)
    | ',' :: q =>
      match skipLines q with
      | ']' :: q => some ([v], q)
      | q => (itemsWith? fuel depth q).map fun p => (v :: p.1, p.2)
    | _ => none

/-- Reads the members of an inline table and the closing brace. -/
def membersWith? : Nat → Nat → Members → List Char → Option (Members × List Char)
  | 0, _, _, _ => none
  | fuel + 1, depth, ms, s => do
    let ((path, name), r) ← key? s
    let (v, r) ← valueWith? fuel depth (← afterEquals? r)
    let ms ← assign? path name v .inline ms
    match skipBlanks r with
    | '}' :: q => some (ms, q)
    | ',' :: q => membersWith? fuel depth ms q
    | _ => none

end

/-- Reads a value. -/
def value? (s : List Char) : Option (Toml × List Char) := valueWith? (2 * s.length + 2) 0 s

/-! ### Lines -/

/-- A line with a meaning. -/
inductive Line where
  /-- A header, which opens a table. -/
  | header (path : List String) (name : String)
  /-- A doubled header, which opens the next of several tables. -/
  | nextHeader (path : List String) (name : String)
  /-- An assignment to a dotted key. -/
  | assignment (path : List String) (name : String) (v : Toml)

/-- Reads a line from its first character that is not blank. -/
def line : List Char → Option (Line × List Char)
  | '[' :: '[' :: r => do
    let ((path, name), r) ← key? r
    let r ← afterLine? (← Text.afterStart [']', ']'] r)
    return (.nextHeader path name, r)
  | '[' :: r => do
    let ((path, name), r) ← key? r
    let r ← afterLine? (← Text.afterStart [']'] r)
    return (.header path name, r)
  | s => do
    let ((path, name), r) ← key? s
    let (v, r) ← value? (← afterEquals? r)
    let r ← afterLine? r
    return (.assignment path name v, r)

/-- Reads the lines of a text. -/
def linesWithin? : Nat → List Char → Option (List Line)
  | 0, _ => none
  | fuel + 1, s =>
    match skipComment (skipLines s) with
    | [] => some []
    | _ => do
      let (l, r) ← line (skipLines s)
      let ls ← linesWithin? fuel r
      return l :: ls

/-! ### Documents -/

/-- A partly built document: the root table and the path of the table that assignments go to. -/
structure Document where
  root : Members
  place : List String

/-- The document after one more line. -/
def Document.add? (d : Document) : Line → Option Document
  | .header path name =>
    (changeAt? false (fun _ ms => open? name ms) path .header d.root).map fun root =>
      ⟨root, path ++ [name]⟩
  | .nextHeader path name =>
    (changeAt? false (fun _ ms => openNext? name ms) path .header d.root).map fun root =>
      ⟨root, path ++ [name]⟩
  | .assignment path name v =>
    (changeAt? false (fun _ ms => assign? path name v .header ms) d.place .header d.root).map
      fun root => ⟨root, d.place⟩

/-- A text without the mark that may precede it. -/
def withoutMark (s : List Char) : List Char :=
  if s.head? = some (Char.ofNat 0xFEFF) then s.drop 1 else s

/-- The root table of a text. -/
def parse? (text : String) : Option Members := do
  let s := withoutMark text.toList
  let lines ← linesWithin? (s.length + 1) s
  let d ← lines.foldlM Document.add? ⟨[], []⟩
  return d.root

end Gateway.Toml
