import Gateway.Service.Basic
import Gateway.Validator
/-!
# The stages of a request

A request goes through a fixed series of stages. Those that need no work are answered at once. All
others wait for admission, and from then on their time is limited: the path is read, the source is
downloaded, its validator is compared with what the client holds, and the source is processed and
encoded. Whatever happens, a request that leaves gives back what it holds in one order: the
downloaded image, its slot, and the record of the time it took; a failure is logged after that.

A request only ever stops where it waits: for its arrival, for admission, for the download and for
the processing. Everything between two stops happens at one instant and is called a turn.
-/

namespace Gateway

/-- How a request ends. -/
inductive Outcome where
  /-- It is answered, at a millisecond. -/
  | response (finish : Nat) (r : Http.Response)
  /-- Its client has gone away. -/
  | cancelled
  /-- The gateway has given it up. -/
  | panicked

/-- What stays the same for an admitted request. -/
structure Visit where
  deadline : Deadline
  parsed : Parsed

/-- Where a request stops. -/
inductive Phase where
  /-- It has not arrived. -/
  | expected
  /-- It waits for admission. -/
  | queued
  /-- Its source is being downloaded, which ends at a millisecond with a result. -/
  | downloading (v : Visit) (tick : Nat) (result : Except Failure Bytes)
  /-- Its source is being processed. -/
  | processing (v : Visit) (source : Bytes) (tag : Option (List Char)) (tick : Nat)
      (result : Except Failure Bytes)
  /-- It has ended. -/
  | ended (o : Outcome)

/-- What the requests share. -/
structure Shared where
  /-- The slots; a request is known by its place in the list of requests. -/
  admission : Admission Nat
  pool : BufferPool

/-- What one turn of a request does: the shared state after it, what an observer sees, and where the
request stops next. -/
structure Turn where
  shared : Shared
  events : List Event
  phase : Phase

/-- A turn that starts with some events. -/
def Turn.after (events : List Event) (t : Turn) : Turn := { t with events := events ++ t.events }

namespace Stage

/-! ### Ends -/

/-- The end of a request with a response. -/
def answered (s : Service) (now : Nat) (r : Http.Response) : Phase :=
  .ended (.response now { r with fields := s.crossOrigin.apply r.fields })

/-- What an observer sees when an admitted request gives back what it holds. -/
def departureEvents (shared : Shared) (hasImage : Bool) : List Event :=
  (if hasImage then [.released] else []) ++
    [.slotsInUse (shared.admission.inUse - 1), .durationRecorded]

/-- The shared state without a request. -/
def departed (shared : Shared) (i : Nat) : Shared :=
  { shared with admission := shared.admission.leave i }

/-- An admitted request leaves with a result. -/
def leave (s : Service) (i now : Nat) (hasImage : Bool) (shared : Shared)
    (result : Except Failure (Http.Response × LogEntry)) : Turn :=
  match result with
  | .ok (r, entry) =>
    ⟨departed shared i, .log entry :: departureEvents shared hasImage, answered s now r⟩
  | .error f =>
    ⟨departed shared i, departureEvents shared hasImage ++ [.log (.failed f)],
      answered s now (.ofFailure f)⟩

/-- A request is answered without admission. -/
def answerAtOnce (s : Service) (now : Nat) (shared : Shared) (events : List Event)
    (r : Http.Response) : Turn :=
  ⟨shared, events, answered s now r⟩

/-- A request fails without admission. -/
def refuse (s : Service) (now : Nat) (shared : Shared) (f : Failure) : Turn :=
  answerAtOnce s now shared [.log (.failed f)] (.ofFailure f)

/-! ### Stages after admission -/

/-- The message about a served image. -/
def servedMessage (v : Visit) (now : Nat) : String :=
  "Processed in " ++ (v.deadline.elapsed (instantOf now)).text ++ ": " ++ v.parsed.sourceUrl ++
    "; " ++ v.parsed.transform.summary

/-- The processed image is encoded. -/
def encode (s : Service) (job : Job) (i now : Nat) (shared : Shared) (v : Visit)
    (tag : Option (List Char)) (data : Bytes) : Turn :=
  let (r, pool) := s.encoder.image shared.pool (s.dateAt now) job.request.fields
    v.parsed.transform v.parsed.sourceUrl tag data s.gzip
  leave s i now true { shared with pool }
    (r.map fun r => (r, .responded .ok (servedMessage v now)))

/-- The processing has ended. -/
def afterProcess (s : Service) (job : Job) (i now : Nat) (shared : Shared) (v : Visit)
    (tag : Option (List Char)) (result : Except Failure Bytes) : Turn :=
  match result with
  | .error f => Turn.after [.errorCounted .processing] (leave s i now true shared (.error f))
  | .ok data =>
    Turn.after (if job.collaborators.reportsProcessed then [.processed data.length] else [])
      (match v.deadline.check (instantOf now) with
      | .error f => leave s i now true shared (.error f)
      | .ok () => encode s job i now shared v tag data)

/-- The processing begins. -/
def startProcess (s : Service) (job : Job) (i now : Nat) (shared : Shared) (v : Visit)
    (source : Bytes) (tag : Option (List Char)) : Turn :=
  match v.deadline.check (instantOf now) with
  | .error f => leave s i now true shared (.error f)
  | .ok () =>
    let left := Deadline.tickOf (v.deadline.remaining (instantOf now)).nanos
    let (ending, result) := v.deadline.run (instantOf now) (job.collaborators.process source)
    let tick := Deadline.tickOf ending
    Turn.after [.processCalled source.length left]
      (if tick = now then afterProcess s job i now shared v tag result
      else ⟨shared, [], .processing v source tag tick result⟩)

/-- The message about a copy that is still good. -/
def notModifiedMessage : String := "Not modified"

/-- The source is compared with what the client holds. -/
def compare (s : Service) (job : Job) (i now : Nat) (shared : Shared) (v : Visit)
    (source : Bytes) : Turn :=
  if s.etags then
    let tag := Validator.calculate source v.parsed.transform
    if Validator.covers job.request.fields tag then
      leave s i now true shared
        (.ok (Encoder.notModified tag, .responded .notModified notModifiedMessage))
    else startProcess s job i now shared v source (some tag)
  else startProcess s job i now shared v source none

/-- The download has ended. -/
def afterDownload (s : Service) (job : Job) (i now : Nat) (shared : Shared) (v : Visit)
    (result : Except Failure Bytes) : Turn :=
  match result with
  | .error f => Turn.after [.errorCounted .download] (leave s i now false shared (.error f))
  | .ok source =>
    Turn.after [.downloaded source.length]
      (match v.deadline.check (instantOf now) with
      | .error f => leave s i now true shared (.error f)
      | .ok () => compare s job i now shared v source)

/-- The download begins. -/
def startDownload (s : Service) (job : Job) (i now : Nat) (shared : Shared) (v : Visit) : Turn :=
  match v.deadline.check (instantOf now) with
  | .error f => leave s i now false shared (.error f)
  | .ok () =>
    let left := Deadline.tickOf (v.deadline.remaining (instantOf now)).nanos
    let (ending, result) := v.deadline.run (instantOf now) job.collaborators.download
    let tick := Deadline.tickOf ending
    Turn.after [.downloadCalled v.parsed.sourceUrl left]
      (if tick = now then afterDownload s job i now shared v result
      else ⟨shared, [], .downloading v tick result⟩)

/-- A request that holds a slot starts its deadline and has its path read. A deadline past the range
of the clock makes the gateway give the request up. -/
def admitted (s : Service) (job : Job) (i now : Nat) (shared : Shared) : Turn :=
  Turn.after [.slotsInUse shared.admission.inUse]
    (match Deadline.start? (instantOf now) s.writeTimeout with
    | none => ⟨departed shared i, departureEvents shared false, .ended .panicked⟩
    | some deadline =>
      Turn.after [.parseCalled]
        (match job.collaborators.parse job.request.target with
        | .error fault => leave s i now false shared (.error fault.classify)
        | .ok parsed => startDownload s job i now shared ⟨deadline, parsed⟩))

/-! ### Turns -/

/-- A request asks for admission. -/
def requestSlot (s : Service) (job : Job) (i now : Nat) (shared : Shared) : Turn :=
  let shared := { shared with admission := shared.admission.arrive i }
  Turn.after [.requestCounted]
    (if i ∈ shared.admission.holders then admitted s job i now shared
    else ⟨shared, [], .queued⟩)

/-- The target whose request asks for the health of the gateway. -/
def healthPath : String := "/health"

/-- The message about an answer to a question about options. -/
def optionsMessage : String := "Respond with options"

/-- A request arrives. -/
def arrive (s : Service) (job : Job) (i now : Nat) (shared : Shared) : Turn :=
  let request := job.request
  Turn.after [.log (.requestStarted request.target.shown)]
    (if request.method = .options then
      answerAtOnce s now shared [.log (.responded .ok optionsMessage)] .options
    else if request.method ≠ .get then refuse s now shared .invalidMethod
    else match s.secret.check request.fields with
      | .error f => refuse s now shared f
      | .ok () =>
        if request.target.shown = healthPath then answerAtOnce s now shared [] .health
        else requestSlot s job i now shared)

/-- A request resumes with the slot that was handed to it. -/
def resume (s : Service) (job : Job) (i now : Nat) (shared : Shared) : Turn :=
  admitted s job i now { shared with admission := shared.admission.resume i }

/-- The client of a request goes away, wherever the request stops. -/
def cancel (i : Nat) (shared : Shared) : Phase → Turn
  | .expected => ⟨shared, [], .ended .cancelled⟩
  | .queued => ⟨departed shared i, [.durationRecorded], .ended .cancelled⟩
  | .downloading .. => ⟨departed shared i, departureEvents shared false, .ended .cancelled⟩
  | .processing .. => ⟨departed shared i, departureEvents shared true, .ended .cancelled⟩
  | .ended o => ⟨shared, [], .ended o⟩

/-- The timer of a request fires where the request stops. -/
def fire (s : Service) (job : Job) (i now : Nat) (shared : Shared) : Phase → Turn
  | .expected => arrive s job i now shared
  | .queued => ⟨shared, [], .queued⟩
  | .downloading v _ result => afterDownload s job i now shared v result
  | .processing v _ tag _ result => afterProcess s job i now shared v tag result
  | .ended o => ⟨shared, [], .ended o⟩

end Stage

end Gateway
