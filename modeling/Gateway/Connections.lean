import Gateway.Event
/-!
# Open connections

Every connection that is served holds a slot. A slot has a number that is never used again; the
count of open connections is published whenever a slot is opened or closed.
-/

namespace Gateway

/-- The slot of an open connection. -/
structure Connections.Slot where
  number : Nat
  peer : SocketAddress
deriving DecidableEq, Repr

/-- The open connections: the number of the next slot, how many connections are open, and their
slots by the names of their holders. -/
structure Connections where
  next : Nat
  count : Nat
  slots : List (String × Connections.Slot)
deriving DecidableEq, Repr

namespace Connections

/-- No open connections; the first slot has a given number. -/
def new (first : Nat) : Connections := ⟨first, 0, []⟩

/-- What happens to connections. -/
inductive Step where
  /-- A connection from a peer is opened. -/
  | opened (name : String) (peer : SocketAddress)
  /-- A connection is closed. -/
  | closed (name : String)

/-- The slot of a holder. -/
def slot? (c : Connections) (name : String) : Option Slot := c.slots.lookup name

/-- The connections after a step, the slot concerned, and what is published. A holder has one slot
at a time. -/
def step? (c : Connections) : Step → Option (Connections × Slot × List Event)
  | .opened name peer =>
    if (c.slot? name).isSome then none
    else
      let slot : Slot := ⟨c.next, peer⟩
      let count := c.count + 1
      some (⟨c.next + 1, count, c.slots ++ [(name, slot)]⟩, slot, [.openConnections count])
  | .closed name =>
    (c.slot? name).map fun slot =>
      let count := c.count - 1
      (⟨c.next, count, c.slots.filter fun s => s.1 != name⟩, slot, [.openConnections count])

end Connections

end Gateway
