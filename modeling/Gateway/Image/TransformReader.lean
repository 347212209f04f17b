import Gateway.Image.Transform
import Gateway.Json.Value
/-!
# Reading transformations

A transformation is read from a JSON object that holds each of the six fields exactly once, in any
order and among other members, or from an array of exactly the six values in their order. A name may
also be written as an object whose only member has that name and is null.
-/

namespace Gateway.Image.Transform

/-! ### Values of the fields -/

/-- A word: a string, or an object with the word as the name of its only member, which is null. -/
def word? : Json → Option String
  | .text s => s
  | .object [(name, .null)] => name
  | _ => none

/-- A natural number below a limit. -/
def below? (limit : Nat) : Json → Option Nat
  | .nat n => if n < limit then some n else none
  | _ => none

/-- A flag. -/
def flag? : Json → Option Bool
  | .bool b => some b
  | _ => none

/-- The transformation of six values. -/
def ofValues? (fitting width height enlarge quality format : Json) : Option Transform := do
  let fitting ← (word? fitting).bind Fitting.ofName?
  let width ← below? (1 <<< 32) width
  let height ← below? (1 <<< 32) height
  let enlarge ← flag? enlarge
  let quality ← below? 256 quality
  let format ← (word? format).bind Format.ofName?
  return ⟨fitting, width.toUInt32, height.toUInt32, enlarge, quality.toUInt8, format⟩

/-! ### Members -/

/-- The value of a name that occurs exactly once. -/
def only? (name : String) (members : List (Option String × Json)) : Option Json :=
  match members.filter fun m => m.1 == some name with
  | [(_, v)] => some v
  | _ => none

/-- The transformation of a JSON value. -/
def ofJson? : Json → Option Transform
  | .array [fitting, width, height, enlarge, quality, format] =>
    ofValues? fitting width height enlarge quality format
  | .object members =>
    if members.all fun m => m.1.isSome then do
      ofValues? (← only? "resize" members) (← only? "width" members) (← only? "height" members)
        (← only? "enlarge" members) (← only? "quality" members) (← only? "format" members)
    else none
  | _ => none

/-- The transformation of a JSON text. -/
def parse? (s : String) : Option Transform := (Json.read? s.toList).bind ofJson?

end Gateway.Image.Transform
