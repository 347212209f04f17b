import Gateway.Url.Host
import Gateway.Url.Path
/-!
# References

An absolute reference has a scheme; most have an authority with a host; then come a path, a query
and a fragment. Blanks and controls around a reference and tabs and line breaks anywhere in it are
dropped. Under the schemes of the web, backslashes count as slashes, any number of slashes may stand
before the host, and the host must not be empty.

A relative reference is read against a base and takes from it what it does not say itself. Whatever
works with references can work with any reader of them, and works with this one unless it is told
otherwise.
-/

namespace Gateway

/-- Who and where: the part of a reference that names a host. -/
structure Url.Authority where
  user : List Char
  /-- The password, if there is one. -/
  password : Option (List Char)
  host : Url.Host
  /-- The port, if it is not the usual one. -/
  port : Option Nat
deriving DecidableEq, Repr

/-- The path of a reference. -/
inductive Url.Path where
  /-- A text without structure. -/
  | flat (s : List Char)
  /-- Segments, each after a slash. -/
  | segments (segs : List (List Char))
deriving DecidableEq, Repr

/-- An absolute reference. -/
structure Url where
  scheme : List Char
  authority : Option Url.Authority
  path : Url.Path
  query : Option (List Char)
  fragment : Option (List Char)
deriving DecidableEq, Repr

namespace Url

/-! ### Schemes -/

/-- The schemes of the web with their usual ports. -/
def webSchemes : List (String × Nat) :=
  [("http", 80), ("https", 443), ("ws", 80), ("wss", 443), ("ftp", 21)]

/-- The usual port of a scheme. -/
def usualPort? (scheme : List Char) : Option Nat := webSchemes.lookup (String.ofList scheme)

/-- The kind of a scheme. -/
def schemeKind (scheme : List Char) : SchemeKind :=
  if scheme = ['f', 'i', 'l', 'e'] then .file
  else if (usualPort? scheme).isSome then .web
  else .other

/-- Whether a character may stand in a scheme after the first. -/
def isSchemeChar (c : Char) : Bool := c.isAlphanum || c = '+' || c = '-' || c = '.'

/-- Reads a scheme and its colon: the scheme in small letters and the rest. -/
def readScheme? (s : List Char) : Option (List Char × List Char) :=
  let name := s.takeWhile isSchemeChar
  match s.drop name.length with
  | ':' :: r => if s.head?.any Char.isAlpha then some (name.map Char.toLower, r) else none
  | _ => none

/-! ### Authority -/

/-- The part of a text that may hold user, host and port, and the rest. -/
def authorityPart (k : SchemeKind) (s : List Char) : List Char × List Char :=
  s.span fun c => !(k.isSeparator c || endsPath c)

/-- Cuts the host off: everything up to a colon outside brackets. -/
def hostPart : Bool → List Char → List Char × List Char
  | _, [] => ([], [])
  | inBrackets, c :: r =>
    if c = ':' && !inBrackets then ([], c :: r)
    else
      let (h, q) := hostPart (if c = '[' then true else if c = ']' then false else inBrackets) r
      (c :: h, q)

/-- Reads the port after its colon, if there is any: the port and the rest. -/
def readPort (scheme : List Char) (s : List Char) : Except Refusal (Option Nat × List Char) :=
  let ds := s.takeWhile Char.isDigit
  let rest := s.drop ds.length
  if 65535 < (Text.valueFrom? 10 0 ds).getD 0 then .error .illegalPort
  else if rest.head?.any fun c => !(c = '/' || c = '\\' || endsPath c) then .error .illegalPort
  else
    let port := Text.value? 10 ds
    .ok (if port = usualPort? scheme then none else port, rest)

/-- The user and the password of the text before the last `@` of an authority. -/
def readUser (s : List Char) : List Char × Option (List Char) :=
  match Text.cutFirst ':' s with
  | some (u, p) => (escape userSet u, if p.isEmpty then none else some (escape userSet p))
  | none => (escape userSet s, none)

/-- Reads an authority after its two slashes: the authority and the rest. -/
def readAuthority (scheme s : List Char) : Except Refusal (Authority × List Char) := do
  let k := schemeKind scheme
  let (part, after) := authorityPart k s
  let (user, place) :=
    match Text.cutLast '@' part with
    | some (u, h) => (some u, h)
    | none => (none, part)
  if user = some [] ∧ place.isEmpty ∧ !after.isEmpty then throw .emptyHost
  let (user, password) := readUser (user.getD [])
  let (hostText, afterHost) := hostPart false place
  if hostText.isEmpty ∧ k = .web then throw .emptyHost
  let host ← if k = .web then webHost hostText else plainHost hostText
  if hostText.isEmpty ∧ (!afterHost.isEmpty ∨ !user.isEmpty ∨ password.isSome) then throw .emptyHost
  match afterHost ++ after with
  | ':' :: r =>
    let (port, rest) ← readPort scheme r
    return (⟨user, password, host, port⟩, rest)
  | rest => return (⟨user, password, host, none⟩, rest)

/-! ### Query and fragment -/

/-- Reads what follows a path: the query and the fragment. -/
def readTail (k : SchemeKind) (s : List Char) : Option (List Char) × Option (List Char) :=
  let beforeFragment := s.takeWhile (· != '#')
  let query := match beforeFragment with
    | '?' :: q => some (escape (if k.isSpecial then specialQuerySet else querySet) q)
    | _ => none
  let fragment := match s.drop beforeFragment.length with
    | '#' :: f => some (escape fragmentSet f)
    | _ => none
  (query, fragment)

/-- A text up to where its path ends, and the rest. -/
def pathPart (s : List Char) : List Char × List Char := s.span fun c => !endsPath c

/-- The reference with a path that is still to be read with some segments already there, and what
follows the path. -/
def finish (scheme : List Char) (authority : Option Authority) (segs : List (List Char))
    (s : List Char) : Url :=
  let k := schemeKind scheme
  let (path, tail) := pathPart s
  let (query, fragment) := readTail k tail
  ⟨scheme, authority, .segments (readPath k segs path), query, fragment⟩

/-- A text without one separator at its start. -/
def dropSeparator (k : SchemeKind) : List Char → List Char
  | c :: r => if k.isSeparator c then r else c :: r
  | [] => []

/-! ### The three kinds of schemes -/

/-- Reads what follows the two slashes of a scheme that is not about files. -/
def afterSlashes (scheme s : List Char) : Except Refusal Url := do
  let k := schemeKind scheme
  let (authority, rest) ← readAuthority scheme s
  if k = .other ∧ (rest.isEmpty ∨ rest.head?.any endsPath) then
    let (query, fragment) := readTail k rest
    return ⟨scheme, some authority, .segments [], query, fragment⟩
  else return finish scheme (some authority) [] (dropSeparator k rest)

/-- Reads what follows a scheme without rules of its own. -/
def readOther (scheme s : List Char) : Except Refusal Url :=
  match s with
  | '/' :: '/' :: r => afterSlashes scheme r
  | '/' :: r => .ok (finish scheme none [] r)
  | s =>
    let (path, tail) := pathPart s
    let (query, fragment) := readTail .other tail
    .ok ⟨scheme, none, .flat (escape (fun _ => false) path), query, fragment⟩

/-- A file reference with the empty segments at the start of its path left out. A path that starts
with a drive letter needs no host. -/
def tidyFile (u : Url) : Url :=
  match u.path with
  | .segments segs =>
    let host := if segs.head?.any isDriveLetter then Host.name []
      else (u.authority.map Authority.host).getD (.name [])
    { u with authority := some ⟨[], none, host, none⟩, path := .segments (dropEmpty segs) }
  | .flat _ => u

/-- Reads the host of a file reference: the host, whether there is one, and the rest. -/
def readFileHost (s : List Char) : Except Refusal (Option Host × List Char) := do
  let text := s.takeWhile fun c => !(SchemeKind.file.isSeparator c || endsPath c)
  if text.isEmpty ∨ isDriveLetter text then return (none, s)
  let host ← webHost text
  return (if host = .name "localhost".toList then none else some host, s.drop text.length)

/-- Reads what follows the file scheme. -/
def readFile (s : List Char) : Except Refusal Url := do
  let scheme := ['f', 'i', 'l', 'e']
  let isSlash (c : Option Char) : Bool := c.any SchemeKind.file.isSeparator
  if isSlash s.head? && isSlash s[1]? then
    let (host, rest) ← readFileHost (s.drop 2)
    match host with
    | some h =>
      return tidyFile (finish scheme (some ⟨[], none, h, none⟩) [] (dropSeparator .file rest))
    | none => return tidyFile (finish scheme none [] rest)
  else return tidyFile (finish scheme none [] (dropSeparator .file s))

/-- Reads what follows a scheme. -/
def readAfterScheme (scheme s : List Char) : Except Refusal Url :=
  match schemeKind scheme with
  | .file => readFile s
  | .web => afterSlashes scheme (s.dropWhile SchemeKind.web.isSeparator)
  | .other => readOther scheme s

/-! ### Whole references -/

/-- A reference without the characters that are dropped from it. -/
def cleaned (s : List Char) : List Char :=
  (Text.trimBy (fun c => c.toNat ≤ 0x20) s).filter fun c => !(c = '\t' || c = '\n' || c = '\r')

/-- Reads an absolute reference. -/
def parse (s : List Char) : Except Refusal Url :=
  match readScheme? (cleaned s) with
  | some (scheme, r) => readAfterScheme scheme r
  | none => .error .relativeWithoutBase

/-- The segments of the path, if it has any structure. -/
def segments? (u : Url) : Option (List (List Char)) :=
  match u.path with
  | .segments (s :: r) => some (s :: r)
  | _ => none

/-- The last segment of the path. -/
def lastSegment? (u : Url) : Option (List Char) := u.segments?.bind List.getLast?

/-! ### Relative references -/

/-- The segments of a path, if any. -/
def Path.toSegments : Path → List (List Char)
  | .segments segs => segs
  | .flat _ => []

/-- Reads a relative reference without a scheme against a base. -/
def readRelative (base : Url) (s : List Char) : Except Refusal Url :=
  let k := schemeKind base.scheme
  match s with
  | [] => .ok { base with fragment := none }
  | c :: r =>
    if c = '#' then .ok { base with fragment := some (escape fragmentSet r) }
    else if c = '?' then
      let (query, fragment) := readTail k s
      .ok { base with query, fragment }
    else if k.isSeparator c then
      if r.head?.any k.isSeparator then
        afterSlashes base.scheme (if k = .web then s.dropWhile k.isSeparator else s.drop 2)
      else .ok (finish base.scheme base.authority [] r)
    else .ok (finish base.scheme base.authority base.path.toSegments.dropLast s)

/-- Reads a reference against a base. -/
def join (base : Url) (s : List Char) : Except Refusal Url :=
  let s := cleaned s
  match readScheme? s with
  | some (scheme, r) =>
    if scheme = base.scheme ∧ schemeKind scheme = .web ∧
        (r.takeWhile SchemeKind.web.isSeparator).length < 2 then
      readRelative base r
    else readAfterScheme scheme r
  | none =>
    match base.path with
    | .flat _ =>
      if s.head? = some '#' then readRelative base s else .error .relativeToOpaque
    | .segments _ => readRelative base s

/-- A reader of references: of absolute ones, and of others against a base. -/
structure Reader where
  parse : List Char → Except Refusal Url
  join : Url → List Char → Except Refusal Url

/-- The reader of this library. -/
def reader : Reader := ⟨parse, join⟩

/-! ### Text -/

/-- The text of an authority. -/
def Authority.text (a : Authority) : List Char :=
  let password := match a.password with
    | some p => ':' :: p
    | none => []
  let login := a.user ++ password
  let port := match a.port with
    | some p => ':' :: Text.decimal p
    | none => []
  (if login.isEmpty then [] else login ++ ['@']) ++ a.host.text ++ port

/-- The text of an optional part after its mark. -/
def marked (mark : Char) : Option (List Char) → List Char
  | some s => mark :: s
  | none => []

/-- The text of a path. After a scheme alone, a path must not look like an authority. -/
def Path.text (hasAuthority : Bool) : Path → List Char
  | .flat s => s
  | .segments segs =>
    let guarded := !hasAuthority && segs.head? == some [] && 1 < segs.length
    (if guarded then ['/', '.'] else []) ++ pathText segs

/-- The text of a reference. -/
def text (u : Url) : List Char :=
  let place := match u.authority with
    | some a => ['/', '/'] ++ a.text
    | none => []
  u.scheme ++ [':'] ++ place ++ u.path.text u.authority.isSome ++ marked '?' u.query ++
    marked '#' u.fragment

/-- The reference without user and password. -/
def withoutLogin (u : Url) : Url :=
  { u with authority := u.authority.map fun a => { a with user := [], password := none } }

end Url

end Gateway
