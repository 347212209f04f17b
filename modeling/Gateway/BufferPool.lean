import Gateway.Text.Utf8
/-!
# Pooled buffers

Buffers for compressed responses are used again, the one given back last first. A buffer grows as it
has to and keeps its room when it is emptied. One with too much room is not kept, and the pool keeps
only so many. Every buffer has a number of its own, by which it can be followed.
-/

namespace Gateway

/-- A buffer: its number, its content and its room. -/
structure BufferPool.Buffer where
  number : Nat
  data : Bytes
  capacity : Nat
deriving DecidableEq, Repr

/-- The buffers that are not in use, the last one given back first, and how many have been made. -/
structure BufferPool where
  maxPooled : Nat
  idle : List BufferPool.Buffer
  made : Nat
deriving DecidableEq, Repr

namespace BufferPool

/-- The room of the largest buffer that is kept. -/
def maxRetained : Nat := 8 * 1024 * 1024

/-- The room that the list of idle buffers takes for each of them, in bytes. -/
def entrySize : Nat := 24

/-- The largest room that anything can have. -/
def roomLimit : Nat := 1 <<< 63 - 1

/-- How the room that is asked for is counted. -/
inductive Room where
  /-- In all: a buffer that has to grow gets as much and no more. -/
  | inAll
  /-- Beyond the content: a buffer that has to grow gets some to spare. -/
  | beyond
deriving DecidableEq, Repr

namespace Buffer

/-- The buffer without its content. -/
def clear (b : Buffer) : Buffer := { b with data := [] }

/-- The room of a buffer that must hold `needed` bytes: at least twice what it was if it grows. -/
def grownCapacity (capacity needed : Nat) : Nat :=
  if needed ≤ capacity then capacity else max (max (2 * capacity) needed) 8

/-- The buffer with more bytes at its end. -/
def append (b : Buffer) (bs : Bytes) : Buffer :=
  let data := b.data ++ bs
  { b with data, capacity := grownCapacity b.capacity data.length }

/-- The buffer with room for so many bytes, in all or beyond its content. -/
def reserve (b : Buffer) (n : Nat) : Room → Buffer
  | .inAll => { b with capacity := max b.capacity n }
  | .beyond => { b with capacity := grownCapacity b.capacity (b.data.length + n) }

end Buffer

/-- A pool without buffers. -/
def new (maxPooled : Nat) : BufferPool := ⟨maxPooled, [], 0⟩

/-- A pool without buffers, unless its list of idle buffers would be too large. -/
def new? (maxPooled : Nat) : Option BufferPool :=
  if maxPooled * entrySize ≤ roomLimit then some (new maxPooled) else none

/-- Takes a buffer out, or makes one. -/
def take (p : BufferPool) : Buffer × BufferPool :=
  match p.idle with
  | b :: bs => (b.clear, { p with idle := bs })
  | [] => (⟨p.made, [], 0⟩, { p with made := p.made + 1 })

/-- Gives a buffer back. -/
def giveBack (p : BufferPool) (b : Buffer) : BufferPool :=
  if maxRetained < b.capacity then p
  else if p.idle.length < p.maxPooled then { p with idle := b.clear :: p.idle }
  else p

/-! ### Steps of named holders -/

/-- A pool and the buffers that are in use, by the names of their holders. -/
structure Desk where
  pool : BufferPool
  lent : List (String × Buffer)

/-- What a holder does. -/
inductive Step where
  | get (name : String)
  | write (name : String) (bs : Bytes)
  /-- Asks for room, in all unless it is said to be beyond the content. -/
  | reserve (name : String) (n : Nat) (room : Room := .inAll)
  | clear (name : String)
  | drop (name : String)

/-- Changes the buffer of a holder, unless that takes more room than anything can have. -/
def Desk.change? (d : Desk) (name : String) (f : Buffer → Buffer) : Option (Desk × Bytes) :=
  (d.lent.lookup name).bind fun b =>
    if (f b).capacity ≤ roomLimit then
      some ({ d with lent := d.lent.map fun l => if l.1 == name then (name, f b) else l },
        (f b).data)
    else none

/-- The desk after a step and the content of the buffer concerned, as it was before a drop. A step
that takes too much room fails, and its holder still has the buffer as it was. -/
def Desk.step? (d : Desk) : Step → Option (Desk × Bytes)
  | .get name =>
    if (d.lent.lookup name).isSome then none
    else
      let (b, pool) := d.pool.take
      some (⟨pool, d.lent ++ [(name, b)]⟩, b.data)
  | .write name bs => d.change? name (·.append bs)
  | .reserve name n room => d.change? name (·.reserve n room)
  | .clear name => d.change? name Buffer.clear
  | .drop name =>
    (d.lent.lookup name).map fun b =>
      (⟨d.pool.giveBack b, d.lent.filter fun l => l.1 != name⟩, b.data)

end BufferPool

end Gateway
