import Gateway.Service.Stage
/-!
# Runs

A run serves a list of requests on a clock that counts milliseconds. Time only moves when no request
can go on. At one instant the timers fire in the order of the list, a request's own before its
cancellation; then the requests to which slots have been handed resume, first come first served.
Each step of a run is one turn of one request.
-/

namespace Gateway

/-- A request in the course of a run: where it stops, and what has been seen of it, with times. -/
structure Task where
  job : Job
  phase : Phase
  trace : List (Nat × Event)

/-- A timer: when it fires, and whether it cancels the request. -/
structure Timer where
  time : Nat
  cancels : Bool
deriving DecidableEq, Repr

/-- The state of a run. -/
structure Run where
  clock : Nat
  shared : Shared
  tasks : List Task

/-- What happens next in a run. -/
inductive Action where
  /-- A timer of a request fires. -/
  | timer (i : Nat) (t : Timer)
  /-- A request resumes with the slot that was handed to it. -/
  | resume (i : Nat)

/-- The place of the request that an action is about. -/
def Action.place : Action → Nat
  | .timer i _ => i
  | .resume i => i

namespace Task

/-- The request before it arrives. -/
def ofJob (job : Job) : Task := ⟨job, .expected, []⟩

/-- When the request goes on by itself, if it does. -/
def ownTime? (t : Task) : Option Nat :=
  match t.phase with
  | .expected => some t.job.arrival
  | .downloading _ tick _ => some tick
  | .processing _ _ _ tick _ => some tick
  | _ => none

/-- Whether the request has ended. -/
def hasEnded (t : Task) : Bool :=
  match t.phase with
  | .ended _ => true
  | _ => false

/-- How the request has ended, if it has. -/
def outcome? (t : Task) : Option Outcome :=
  match t.phase with
  | .ended o => some o
  | _ => none

/-- When the request is cancelled, if it is. -/
def cancelTime? (t : Task) : Option Nat := if t.hasEnded then none else t.job.cancelAt

/-- The next timer of the request; at one time, its own comes before its cancellation. -/
def timer? (t : Task) : Option Timer :=
  match t.ownTime?, t.cancelTime? with
  | some own, some cancel => some (if own ≤ cancel then ⟨own, false⟩ else ⟨cancel, true⟩)
  | some own, none => some ⟨own, false⟩
  | none, some cancel => some ⟨cancel, true⟩
  | none, none => none

end Task

namespace Run

/-- The start of a run. -/
def start (s : Service) (jobs : List Job) : Run :=
  ⟨0, ⟨.new s.capacity, Encoder.freshPool⟩, jobs.map Task.ofJob⟩

/-- The first of the earliest timers of some requests, the first of which has a given place. -/
def earliest : Nat → List Task → Option (Nat × Timer)
  | _, [] => none
  | i, t :: ts =>
    match t.timer?, earliest (i + 1) ts with
    | some a, some (j, b) => some (if a.time ≤ b.time then (i, a) else (j, b))
    | some a, none => some (i, a)
    | none, r => r

/-- What happens next, if anything does before the run is stopped. -/
def next? (horizon : Nat) (r : Run) : Option Action :=
  match earliest 0 r.tasks, r.shared.admission.handed with
  | some (i, t), [] => if t.time ≤ horizon then some (.timer i t) else none
  | some (i, t), j :: _ => some (if t.time ≤ r.clock then .timer i t else .resume j)
  | none, j :: _ => some (.resume j)
  | none, [] => none

/-- The turn of a request that an action consists in, and its instant. -/
def turn (s : Service) (r : Run) (task : Task) : Action → Nat × Turn
  | .timer i t =>
    let now := max r.clock t.time
    (now, if t.cancels then Stage.cancel i r.shared task.phase
      else Stage.fire s task.job i now r.shared task.phase)
  | .resume i => (r.clock, Stage.resume s task.job i r.clock r.shared)

/-- The run after an action. -/
def act (s : Service) (r : Run) (a : Action) : Run :=
  match r.tasks[a.place]? with
  | none => r
  | some task =>
    let (now, turn) := r.turn s task a
    ⟨now, turn.shared, r.tasks.set (a.place)
      ⟨task.job, turn.phase, task.trace ++ turn.events.map fun e => (now, e)⟩⟩

/-- The run after a number of steps, or when nothing happens any more. -/
def steps (s : Service) (horizon : Nat) : Nat → Run → Run
  | 0, r => r
  | n + 1, r =>
    match r.next? horizon with
    | none => r
    | some a => steps s horizon n (r.act s a)

/-- The largest number of turns that a request can have: one for each place where it stops. -/
def turnsPerRequest : Nat := 4

/-- The run of a list of requests up to a millisecond. -/
def serve (s : Service) (jobs : List Job) (horizon : Nat) : Run :=
  steps s horizon (turnsPerRequest * jobs.length) (start s jobs)

end Run

end Gateway
