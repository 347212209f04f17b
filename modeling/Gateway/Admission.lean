/-!
# Admission

A fixed number of slots bounds how many parties work at once. A party that finds no free slot waits
in line. A slot that becomes free goes to the first in line at once: it is handed over, and nobody
else can take it, but the party only holds it when it resumes. A party may leave at any time; a slot
that it held, or that had been handed to it, passes on in the same way.
-/

namespace Gateway

/-- The slots and who has or wants one. -/
structure Admission (α : Type) where
  capacity : Nat
  /-- Slots that nobody has. -/
  free : Nat
  /-- The parties that wait, the first in line first. -/
  waiting : List α
  /-- The parties to which a slot has been handed and that have not resumed yet. -/
  handed : List α
  /-- The parties that hold a slot. -/
  holders : List α
deriving DecidableEq, Repr

namespace Admission

variable {α : Type} [DecidableEq α]

/-- The largest possible number of slots. -/
def capacityLimit : Nat := 1 <<< 61 - 1

/-- Nobody has or wants a slot. -/
def new (capacity : Nat) : Admission α := ⟨capacity, capacity, [], [], []⟩

/-- The number of slots that are not free. -/
def inUse (a : Admission α) : Nat := a.capacity - a.free

/-- A party asks for a slot: it holds one at once if one is free, else it waits. -/
def arrive (a : Admission α) (p : α) : Admission α :=
  if 0 < a.free then { a with free := a.free - 1, holders := a.holders ++ [p] }
  else { a with waiting := a.waiting ++ [p] }

/-- A party resumes: it holds the slot that was handed to it, if any. -/
def resume (a : Admission α) (p : α) : Admission α :=
  if p ∈ a.handed then { a with handed := a.handed.erase p, holders := a.holders ++ [p] } else a

/-- A slot becomes free. -/
def release (a : Admission α) : Admission α :=
  match a.waiting with
  | [] => { a with free := a.free + 1 }
  | p :: ps => { a with waiting := ps, handed := a.handed ++ [p] }

/-- A party leaves, whatever it has. -/
def leave (a : Admission α) (p : α) : Admission α :=
  if p ∈ a.holders then release { a with holders := a.holders.erase p }
  else if p ∈ a.handed then release { a with handed := a.handed.erase p }
  else { a with waiting := a.waiting.erase p }

/-! ### Steps of named parties -/

/-- What a party does. -/
inductive Step (α : Type) where
  /-- It asks for a slot. -/
  | acquire (p : α)
  /-- It looks whether it has been handed one. -/
  | poll (p : α)
  /-- It gives up what it has. -/
  | drop (p : α)

/-- What comes of a step. -/
inductive Answer where
  | granted
  | waiting
  | released
  | cancelled
deriving DecidableEq, Repr

/-- Whether a party has or wants a slot. -/
def knows (a : Admission α) (p : α) : Bool :=
  p ∈ a.holders || p ∈ a.handed || p ∈ a.waiting

/-- The slots after a step, what comes of it, and the number of slots in use that is published. A
party asks only once at a time, and only a party that has asked can do anything else. -/
def step? (a : Admission α) : Step α → Option (Admission α × Answer × Option Nat)
  | .acquire p =>
    if a.knows p then none
    else
      let b := a.arrive p
      if p ∈ b.holders then some (b, .granted, some b.inUse) else some (b, .waiting, none)
  | .poll p =>
    if p ∈ a.holders then some (a, .granted, none)
    else if p ∈ a.handed then
      let b := a.resume p
      some (b, .granted, some b.inUse)
    else if p ∈ a.waiting then some (a, .waiting, none)
    else none
  | .drop p =>
    if p ∈ a.holders then some (a.leave p, .released, some (a.inUse - 1))
    else if a.knows p then some (a.leave p, .cancelled, none)
    else none

end Admission

end Gateway
