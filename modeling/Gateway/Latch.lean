/-!
# The shutdown latch

The latch is shared by owners, who may trigger it, and signals, which wait for it. Once triggered it
stays so. A latch without owners can never be triggered by anyone, so its signals count as
triggered.
-/

namespace Gateway

/-- A latch with named owners and signals. -/
structure Latch where
  triggered : Bool
  owners : List String
  signals : List String
deriving DecidableEq, Repr

namespace Latch

/-- A new latch with one owner. -/
def new (owner : String) : Latch := ⟨false, [owner], []⟩

/-- Whether a signal that is looked at is triggered. -/
def fires (l : Latch) : Bool := l.triggered || l.owners.isEmpty

/-- What is done with a latch. -/
inductive Step where
  /-- An owner makes a signal. -/
  | signal (name owner : String)
  /-- A signal is copied. -/
  | cloneSignal (name signal : String)
  /-- An owner is copied. -/
  | cloneOwner (name owner : String)
  /-- An owner triggers the latch. -/
  | trigger (owner : String)
  /-- An owner goes away. -/
  | drop (owner : String)
  /-- A signal is looked at. -/
  | poll (signal : String)

/-- What comes of a step. -/
inductive Answer where
  | done
  /-- Whether the owner that was to go away was there. -/
  | dropped (wasThere : Bool)
  /-- Whether the signal is triggered. -/
  | polled (fires : Bool)
deriving DecidableEq, Repr

/-- The latch after a step and what comes of it. A step must name owners and signals that are there,
and new ones must have new names; only the dropping of an owner may be in vain. -/
def step? (l : Latch) : Step → Option (Latch × Answer)
  | .signal name owner =>
    if owner ∈ l.owners ∧ name ∉ l.signals then
      some ({ l with signals := l.signals ++ [name] }, .done)
    else none
  | .cloneSignal name signal =>
    if signal ∈ l.signals ∧ name ∉ l.signals then
      some ({ l with signals := l.signals ++ [name] }, .done)
    else none
  | .cloneOwner name owner =>
    if owner ∈ l.owners ∧ name ∉ l.owners then
      some ({ l with owners := l.owners ++ [name] }, .done)
    else none
  | .trigger owner => if owner ∈ l.owners then some ({ l with triggered := true }, .done) else none
  | .drop owner =>
    some ({ l with owners := l.owners.filter (· != owner) }, .dropped (l.owners.contains owner))
  | .poll signal => if signal ∈ l.signals then some (l, .polled l.fires) else none

end Latch

end Gateway
