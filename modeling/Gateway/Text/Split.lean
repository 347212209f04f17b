import Gateway.Text.Utf8
/-!
# Cutting lists

Searching and cutting of texts and byte strings. Every function works on lists of any element type,
so that the same lemmas serve characters and bytes.
-/

namespace Gateway.Text

variable {α : Type} [DecidableEq α]

/-- The pieces between the occurrences of a separator: one piece more than there are separators. -/
def split (sep : α) : List α → List (List α)
  | [] => [[]]
  | c :: r =>
    if c = sep then [] :: split sep r
    else match split sep r with
      | [] => [[c]]
      | p :: ps => (c :: p) :: ps

/-- Cuts at the first separator. -/
def cutFirst (sep : α) : List α → Option (List α × List α)
  | [] => none
  | c :: r => if c = sep then some ([], r) else (cutFirst sep r).map fun p => (c :: p.1, p.2)

/-- Cuts at the last separator. -/
def cutLast (sep : α) : List α → Option (List α × List α)
  | [] => none
  | c :: r =>
    match cutLast sep r with
    | some p => some (c :: p.1, p.2)
    | none => if c = sep then some ([], r) else none

/-- What follows a given beginning. -/
def afterStart : List α → List α → Option (List α)
  | [], s => some s
  | _ :: _, [] => none
  | a :: as, c :: r => if a = c then afterStart as r else none

/-- Whether a text occurs inside another. -/
def occursIn (needle : List α) : List α → Bool
  | [] => needle.isEmpty
  | c :: r => needle.isPrefixOf (c :: r) || occursIn needle r

/-- Drops the elements that satisfy a test from both ends. -/
def trimBy (p : α → Bool) (s : List α) : List α :=
  ((s.dropWhile p).reverse.dropWhile p).reverse

/-- Joins pieces with a separator between neighbours. -/
def join (sep : List α) : List (List α) → List α
  | [] => []
  | [p] => p
  | p :: q :: r => p ++ sep ++ join sep (q :: r)

end Gateway.Text
