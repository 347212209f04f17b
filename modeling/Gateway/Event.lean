import Gateway.Failure
import Gateway.Severity
import Gateway.Net.Address
/-!
# Events

What an observer of the gateway sees while it works: log entries, changes of its measurements, and
the calls it makes to the collaborators that read paths, fetch images and process them. A run leaves
a list of events behind, and most statements about the gateway are statements about that list.
-/

namespace Gateway

/-- An entry of the log. -/
inductive LogEntry where
  /-- A request has come in for a target. -/
  | requestStarted (target : String)
  /-- A request is answered as it should be. -/
  | responded (status : Http.Status) (message : String)
  /-- A request has failed. -/
  | failed (f : Failure)
  /-- A configured origin cannot stand in a header field. -/
  | originIgnored (origin : String)

namespace LogEntry

/-- The level of an entry. -/
def level : LogEntry → Level
  | requestStarted _ => .info
  | responded status _ => (Severity.ofStatus status).level
  | failed f => (Severity.ofStatus f.status).level
  | originIgnored _ => .warn

/-- The message of an entry. -/
def message : LogEntry → String
  | requestStarted _ => "Request started"
  | responded _ message => message
  | failed f => f.message
  | originIgnored _ => "Ignoring invalid CORS origin"

/-- The status that an entry mentions. -/
def status? : LogEntry → Option Http.Status
  | responded status _ => some status
  | failed f => some f.status
  | _ => none

end LogEntry

/-- The part of a request that an error is counted for. -/
inductive Stage where
  | download
  | processing
deriving DecidableEq, Repr

/-- The word for a stage. -/
def Stage.word : Stage → String
  | .download => "download"
  | .processing => "processing"

/-- What an observer sees. -/
inductive Event where
  | log (entry : LogEntry)
  /-- A request asks for admission. -/
  | requestCounted
  /-- A call to a collaborator has failed. -/
  | errorCounted (stage : Stage)
  /-- The number of admission slots in use is set. -/
  | slotsInUse (n : Nat)
  /-- The number of open connections is set. -/
  | openConnections (n : Nat)
  /-- The time that a request took is recorded. -/
  | durationRecorded
  /-- The path is given to its reader. -/
  | parseCalled
  /-- The download of a source begins, with so many milliseconds left. -/
  | downloadCalled (url : String) (remaining : Nat)
  /-- The download has delivered so many bytes. -/
  | downloaded (size : Nat)
  /-- The processing of so many bytes begins, with so many milliseconds left. -/
  | processCalled (size : Nat) (remaining : Nat)
  /-- The processing has delivered so many bytes. -/
  | processed (size : Nat)
  /-- The downloaded image is given back. -/
  | released

end Gateway
