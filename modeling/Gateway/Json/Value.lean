import Gateway.Json.Token
/-!
# JSON values

A value is built from tokens by a machine with a stack: each open array or object is a frame that
holds the members read so far. Members keep their order and repeated names are kept too, because the
readers of records refuse a repeated name rather than choose between the two.
-/

namespace Gateway

/-- A JSON value. -/
inductive Json where
  | null
  | bool (b : Bool)
  /-- A number written as a natural number. -/
  | nat (n : Nat)
  /-- Any other number. -/
  | otherNumber
  /-- A string, `none` if it denotes no text. -/
  | text (s : Option String)
  | array (items : List Json)
  /-- The members of an object in order. -/
  | object (members : List (Option String × Json))

namespace Json

/-- An array or object that has been opened and not yet closed. -/
inductive Frame where
  | array (items : List Json)
  /-- An object whose next member has the given name, if that has been read. -/
  | object (members : List (Option String × Json)) (name : Option String)

/-- What may come next. -/
inductive Place where
  /-- A value. -/
  | value
  /-- A value or the end of an array. -/
  | firstItem
  /-- A name or the end of an object. -/
  | firstName
  /-- A name. -/
  | name
  /-- The colon after a name. -/
  | colon
  /-- A comma or the end of the innermost frame. -/
  | afterItem

/-- A partly read value: the open frames, the innermost first, and what may come next; or a whole
value. -/
inductive Progress where
  | open (frames : List Frame) (place : Place)
  | whole (v : Json)

/-- Puts a whole value into the innermost open frame. -/
def settle (v : Json) : List Frame → Progress
  | [] => .whole v
  | .array items :: fs => .open (.array (items ++ [v]) :: fs) .afterItem
  | .object members name :: fs => .open (.object (members ++ [(name, v)]) none :: fs) .afterItem

/-- Reads a token where a value is expected. -/
def beginValue? (frames : List Frame) : Token → Option Progress
  | .null => some (settle .null frames)
  | .bool b => some (settle (.bool b) frames)
  | .nat n => some (settle (.nat n) frames)
  | .otherNumber => some (settle .otherNumber frames)
  | .text s => some (settle (.text s) frames)
  | .openBracket => some (.open (.array [] :: frames) .firstItem)
  | .openBrace => some (.open (.object [] none :: frames) .firstName)
  | _ => none

/-- Reads a token where the name of a member is expected. -/
def beginMember? (frames : List Frame) (t : Token) : Option Progress :=
  match frames, t with
  | .object members _ :: fs, .text s => some (.open (.object members s :: fs) .colon)
  | _, _ => none

/-- Closes the innermost frame with a bracket or brace. -/
def close? : List Frame → Token → Option Progress
  | .array items :: fs, .closeBracket => some (settle (.array items) fs)
  | .object members _ :: fs, .closeBrace => some (settle (.object members) fs)
  | _, _ => none

/-- Reads one token. -/
def advance? : Progress → Token → Option Progress
  | .whole _, _ => none
  | .open frames .value, t => beginValue? frames t
  | .open frames .firstItem, t =>
    if t = .closeBracket then close? frames t else beginValue? frames t
  | .open frames .firstName, t => if t = .closeBrace then close? frames t else beginMember? frames t
  | .open frames .name, t => beginMember? frames t
  | .open frames .colon, t => if t = .colon then some (.open frames .value) else none
  | .open frames .afterItem, t =>
    if t = .comma then
      match frames with
      | .array _ :: _ => some (.open frames .value)
      | .object .. :: _ => some (.open frames .name)
      | [] => none
    else close? frames t

/-- The value of a list of tokens, read from a given point. -/
def ofTokensFrom? : Progress → List Token → Option Json
  | .whole v, [] => some v
  | .open .., [] => none
  | p, t :: ts => (advance? p t).bind fun p' => ofTokensFrom? p' ts

/-- The value of a JSON text. -/
def read? (s : List Char) : Option Json :=
  (tokens? s).bind (ofTokensFrom? (.open [] .value))

end Json

end Gateway
