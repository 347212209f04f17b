import Gateway.Failure
/-!
# Deadlines

A deadline is a span of time that starts when a request is admitted and is never extended. The clock
counts nanoseconds; timers fire at whole milliseconds, at the first one that is not early. A call
made under a deadline ends when it answers or when the deadline expires, whichever comes first, and
the call is looked at first when both are due. A call that answers without waiting always gets its
answer through, even after expiry.
-/

namespace Gateway

/-- A call to a collaborator: how many milliseconds it takes, if it ever answers, and its answer. -/
structure Call (α : Type) where
  delay : Option Nat
  answer : Except Fault α

/-- A span of time on the clock, in nanoseconds. -/
structure Deadline where
  started : Nat
  expires : Nat
deriving DecidableEq, Repr

namespace Deadline

/-- The first nanosecond that the clock cannot show. -/
def clockEnd : Nat := (1 <<< 63 - 1) * Duration.perSecond

/-- Starts a deadline at an instant, unless its end is past the clock's range. -/
def start? (now : Nat) (budget : Duration) : Option Deadline :=
  if now + budget.nanos < clockEnd then some ⟨now, now + budget.nanos⟩ else none

/-- The time since the start. -/
def elapsed (d : Deadline) (now : Nat) : Duration := ⟨now - d.started⟩

/-- The time left; nothing once the deadline has expired. -/
def remaining (d : Deadline) (now : Nat) : Duration := ⟨d.expires - now⟩

/-- Whether the deadline has expired. -/
def isExpired (d : Deadline) (now : Nat) : Bool := d.expires ≤ now

/-- Fails once the deadline has expired. -/
def check (d : Deadline) (now : Nat) : Except Failure Unit :=
  if d.isExpired now then .error (.timeout (d.elapsed now)) else .ok ()

/-! ### Timers -/

/-- The millisecond in which an instant lies. -/
def tickOf (instant : Nat) : Nat := instant / Duration.perMilli

/-- The first millisecond at which a timer for an instant fires. -/
def timerTick (instant : Nat) : Nat := (instant + (Duration.perMilli - 1)) / Duration.perMilli

/-- The millisecond at which the deadline ends a call that is under way. -/
def expiryTick (d : Deadline) (now : Nat) : Nat := max (tickOf now) (timerTick d.expires)

/-- When a call made now ends, and whether it answers then. -/
def settlement (d : Deadline) (now : Nat) (delay : Option Nat) : Nat × Bool :=
  match delay with
  | some 0 => (tickOf now, true)
  | some delay =>
    let due := timerTick (now + delay * Duration.perMilli)
    if due ≤ d.expiryTick now then (due, true) else (d.expiryTick now, false)
  | none => (d.expiryTick now, false)

/-- The instant to which waiting until a millisecond moves the clock. -/
def waitUntil (now tick : Nat) : Nat := now + (tick - tickOf now) * Duration.perMilli

/-- Makes a call under the deadline: the instant at which it ends, and what comes of it. -/
def run {α : Type} (d : Deadline) (now : Nat) (call : Call α) : Nat × Except Failure α :=
  let (tick, answers) := d.settlement now call.delay
  let ending := waitUntil now tick
  if answers then
    match call.answer with
    | .ok a => (ending, .ok a)
    | .error fault => (ending, .error fault.classify)
  else (ending, .error (.timeout (d.elapsed ending)))

/-! ### Steps on a clock -/

/-- What is done with a deadline while time passes. -/
inductive Step (α : Type) where
  /-- Time passes. -/
  | advance (span : Duration)
  | elapsed
  | remaining
  | expired
  | check
  | run (call : Call α)

/-- What comes of a step. -/
inductive Answer (α : Type) where
  | advanced
  | span (d : Duration)
  | expired (b : Bool)
  | checked (r : Except Failure Unit)
  | ran (r : Except Failure α)

/-- The instant after a step and what comes of it, unless the clock would run past its range. -/
def step? {α : Type} (d : Deadline) (now : Nat) : Step α → Option (Nat × Answer α)
  | .advance span =>
    if now + span.nanos < clockEnd then some (now + span.nanos, .advanced) else none
  | .elapsed => some (now, .span (d.elapsed now))
  | .remaining => some (now, .span (d.remaining now))
  | .expired => some (now, .expired (d.isExpired now))
  | .check => some (now, .checked (d.check now))
  | .run call =>
    let (ending, r) := d.run now call
    some (ending, .ran r)

end Deadline

end Gateway
