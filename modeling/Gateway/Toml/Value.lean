import Gateway.Toml.Text
import Gateway.Toml.Number
/-!
# TOML values

A document is a table of values. A table knows how it came into being, because that decides whether
a later line may still add to it: a table opened by a header may be opened only once, one that only
lies on the way to another may still be opened, one that a dotted key made may grow by dotted keys
only, and an inline table is closed at once.
-/

namespace Gateway

/-- How a table came into being. -/
inductive Toml.Kind where
  /-- Opened by a header. -/
  | header
  /-- On the way to a table that a header opened. -/
  | implied
  /-- Made by a dotted key. -/
  | dotted
  /-- Written between braces. -/
  | inline
deriving DecidableEq, Repr

/-- A TOML value. -/
inductive Toml where
  | text (s : String)
  | integer (n : Int)
  | flag (b : Bool)
  /-- A number with a fraction or an exponent. -/
  | decimal
  /-- A date or time. -/
  | moment
  | array (items : List Toml)
  | table (kind : Toml.Kind) (members : List (String × Toml))
  /-- Tables opened one after the other by doubled headers; each is a list of members. -/
  | tables (items : List (List (String × Toml)))

namespace Toml

/-- The named values of a table. -/
abbrev Members := List (String × Toml)

/-- The value of a quantity. -/
def ofQuantity : Quantity → Toml
  | .integer n => .integer n
  | .decimal => .decimal
  | .moment => .moment

/-- The value of a name. -/
def Members.get? (name : String) (ms : Members) : Option Toml := ms.lookup name

/-- The members with another value for a name. -/
def Members.set (name : String) (v : Toml) (ms : Members) : Members :=
  ms.map fun m => if m.1 == name then (name, v) else m

/-! ### Growing tables -/

/-- Applies a change to the table at the end of a path. Missing tables on the way are made: by a
dotted key if `dotted`, else as implied ones. A table under several doubled headers is the last
one. The change is told the kind of the table. -/
def changeAt? (dotted : Bool) (change : Kind → Members → Option Members) :
    List String → Kind → Members → Option Members
  | [], kind, ms => change kind ms
  | name :: path, _, ms =>
    match ms.get? name with
    | none =>
      let kind := if dotted then Kind.dotted else Kind.implied
      (changeAt? dotted change path kind []).map fun inner => ms ++ [(name, .table kind inner)]
    | some (.table kind inner) =>
      if kind = .inline ∨ (dotted ∧ kind = .header) then none
      else (changeAt? dotted change path kind inner).map fun inner =>
        ms.set name (.table kind inner)
    | some (.tables items) =>
      match items.getLast? with
      | some last =>
        (changeAt? dotted change path .header last).map fun last =>
          ms.set name (.tables (items.dropLast ++ [last]))
      | none => none
    | some _ => none

/-- Gives a value to a dotted key, all parts of which but the last are given as a path. A name takes
a value once, and a key of several parts ends in a table that dotted keys made. -/
def assign? (path : List String) (name : String) (v : Toml) : Kind → Members → Option Members :=
  changeAt? true
    (fun kind ms =>
      if (kind = .dotted ↔ path = []) ∨ (ms.get? name).isSome then none
      else some (ms ++ [(name, v)]))
    path

/-- Opens a table by a header. -/
def open? (name : String) (ms : Members) : Option Members :=
  match ms.get? name with
  | none => some (ms ++ [(name, .table .header [])])
  | some (.table .implied inner) => some (ms.set name (.table .header inner))
  | some _ => none

/-- Opens the next of several tables by a doubled header. -/
def openNext? (name : String) (ms : Members) : Option Members :=
  match ms.get? name with
  | none => some (ms ++ [(name, .tables [[]])])
  | some (.tables items) => some (ms.set name (.tables (items ++ [[]])))
  | some _ => none

end Toml

end Gateway
