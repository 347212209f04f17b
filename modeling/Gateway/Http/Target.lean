import Gateway.Text.Split
/-!
# Request targets

A request names its target in one of four forms: a path with an optional query, an absolute
reference with a scheme and an authority before the path, an authority alone, or an asterisk. What
matters of a target is the path with its query; an authority alone has none. A fragment is dropped.
-/

namespace Gateway.Http

/-- The target of a request. -/
inductive Target where
  /-- An authority alone. -/
  | authority
  /-- Any other form, by its path and query. -/
  | resource (pathAndQuery : String)
deriving DecidableEq, Repr

namespace Target

/-! ### Path and query -/

/-- Whether a character may stand in a path. -/
def isPathChar (c : Char) : Bool :=
  let n := c.toNat
  n = 0x21 || n = 0x22 || (0x24 ≤ n && n ≤ 0x3B) || n = 0x3D || (0x40 ≤ n && n ≤ 0x5F) ||
    (0x61 ≤ n && n ≤ 0x7E) || 0x80 ≤ n

/-- Whether a character may stand in a query. -/
def isQueryChar (c : Char) : Bool :=
  let n := c.toNat
  n = 0x21 || (0x24 ≤ n && n ≤ 0x3B) || n = 0x3D || 0x3F ≤ n

/-- A text up to its fragment. -/
def beforeFragment (s : List Char) : List Char := s.takeWhile (· != '#')

/-- The target with a given path and query; an empty one stands for the root. -/
def ofPath? (s : List Char) : Option Target :=
  let s := beforeFragment s
  let path := s.takeWhile (· != '?')
  let query := s.dropWhile (· != '?')
  if path.all isPathChar && query.all isQueryChar then
    some (.resource (if s.isEmpty then "/" else String.ofList s))
  else none

/-! ### Authority -/

/-- Whether a character may stand in an authority, apart from a percent sign. -/
def isAuthorityChar (c : Char) : Bool :=
  c.isAlphanum ||
    ['!', '$', '&', '\'', '(', ')', '*', '+', ',', '-', '.', ':', ';', '=', '@', '[', ']', '_',
      '~'].contains c

/-- What has been seen of an authority. -/
structure Scan where
  /-- Colons since the user part or the bracketed address ended. -/
  colons : Nat := 0
  /-- Whether a bracket has been opened. -/
  opened : Bool := false
  /-- Whether a bracket has been closed. -/
  closed : Bool := false
  /-- Whether a percent sign stands outside the user part and the brackets. -/
  percent : Bool := false

/-- The largest number of colons in one part of an authority. -/
def colonLimit : Nat := 8

/-- What has been seen after one more character. -/
def Scan.step? (s : Scan) (c : Char) : Option Scan :=
  if c = '%' then some { s with percent := true }
  else if !isAuthorityChar c then none
  else if c = ':' then
    if colonLimit ≤ s.colons then none else some { s with colons := s.colons + 1 }
  else if c = '[' then
    if s.percent || s.opened then none else some { s with opened := true }
  else if c = ']' then
    if !s.opened || s.closed then none
    else some { s with closed := true, colons := 0, percent := false }
  else if c = '@' then some { s with colons := 0, percent := false }
  else some s

/-- Whether a text is an authority: brackets in pairs, at most one colon for a port, percent signs
in the user part or in brackets only, and something after the user part. -/
def isAuthority (s : List Char) : Bool :=
  match s.foldlM Scan.step? {} with
  | some scan =>
    scan.opened == scan.closed && scan.colons ≤ 1 && !scan.percent && s.getLast? != some '@'
  | none => false

/-! ### Scheme -/

/-- Whether a character may stand in a scheme. -/
def isSchemeChar (c : Char) : Bool := c.isAlphanum || ['+', '-', '.', '~'].contains c

/-- The largest length of a scheme. -/
def schemeLimit : Nat := 64

/-- The length of the scheme before `://`, if there is one. -/
def scheme? (s : List Char) : Option Nat :=
  let n := (s.takeWhile isSchemeChar).length
  if (s.drop n).take 3 = [':', '/', '/'] then some n else none

/-! ### Targets -/

/-- Whether a character ends an authority. -/
def endsAuthority (c : Char) : Bool := c = '/' || c = '?' || c = '#'

/-- The largest number of bytes in a target. -/
def sizeLimit : Nat := 65534

/-- The target of a text that is not a path. -/
def ofReference? (s : List Char) : Option Target :=
  match scheme? s with
  | none => if isAuthority s then some .authority else none
  | some n =>
    let rest := s.drop (n + 3)
    let authority := rest.takeWhile fun c => !endsAuthority c
    if n ≤ schemeLimit && !authority.isEmpty && isAuthority authority then
      ofPath? (rest.drop authority.length)
    else none

/-- The target that a text names. -/
def parse? (s : String) : Option Target :=
  if sizeLimit < (Utf8.ofString s).length then none
  else match s.toList with
    | [] => none
    | ['*'] => some (.resource "*")
    | '/' :: r => ofPath? ('/' :: r)
    | cs => ofReference? cs

/-- The path and query, if the target has any. -/
def pathAndQuery? : Target → Option String
  | authority => none
  | resource s => some s

/-- The path and query as log lines show it. -/
def shown (t : Target) : String := t.pathAndQuery?.getD "/"

end Target

end Gateway.Http
