import Gateway.Access.CrossOrigin
import Gateway.Access.Secret
import Gateway.Admission
import Gateway.Config.Basic
import Gateway.Deadline
import Gateway.Encoder
import Gateway.Http.Method
import Gateway.Http.Target
import Gateway.PlainPath
/-!
# The service

What the gateway is made of once it is configured, what a request brings, and how the collaborators
that serve it behave: the reader of paths answers at once, the download and the processing take
time, fail or never answer.
-/

namespace Gateway

/-- A request as far as the gateway looks at it. -/
structure Request where
  method : Http.Method
  target : Http.Target
  fields : Http.Fields

/-- How the collaborators behave towards a request. -/
structure Collaborators where
  /-- What the reader of paths makes of a target. -/
  parse : Http.Target → Except Fault Parsed
  /-- The download of the source. -/
  download : Call Bytes
  /-- The processing of a source. -/
  process : Bytes → Call Bytes
  /-- Whether the end of the processing is reported. -/
  reportsProcessed : Bool

/-- A request with the collaborators that serve it, the millisecond at which it arrives, and the one
at which its client goes away, if it does. -/
structure Job where
  request : Request
  collaborators : Collaborators
  arrival : Nat
  cancelAt : Option Nat

/-- The configured gateway. -/
structure Service where
  secret : Access.Secret
  crossOrigin : Access.CrossOrigin
  encoder : Encoder
  /-- The compression, at a level of effort. -/
  gzip : Nat → Bytes → Bytes
  writeTimeout : Duration
  etags : Bool
  /-- How many requests may be between admission and exit at once. -/
  capacity : Nat
  /-- The date at which the clock starts, in seconds. -/
  epoch : Nat

namespace Service

/-- The gateway of a configuration, whose clock starts at a date. It can use any compression. -/
def ofConfig (c : Config) (epoch : Nat) (gzip : Nat → Bytes → Bytes := Gzip.compress) :
    Service where
  secret := .ofConfig c.security.secret
  crossOrigin := .ofConfig c.security.allowOrigin
  encoder := .ofConfig c.response
  gzip := gzip
  writeTimeout := .ofSecs c.timeouts.writeSecs
  etags := c.response.etags
  capacity := c.processing.concurrency
  epoch := epoch

/-- Whether there can be as many slots as are asked for; otherwise the gateway does not start. -/
def isPossible (s : Service) : Bool := s.capacity ≤ Admission.capacityLimit

/-- The date at a millisecond of the clock, in seconds. -/
def dateAt (s : Service) (now : Nat) : Nat := s.epoch + now / 1000

end Service

/-- The instant of a millisecond. -/
def instantOf (ms : Nat) : Nat := ms * Duration.perMilli

namespace Collaborators

/-- The processing that gives the source back as it is. -/
def passthrough (source : Bytes) : Call Bytes := ⟨some 0, .ok source⟩

/-- The reader of plain paths. -/
def plainPath (target : Http.Target) : Except Fault Parsed :=
  match PlainPath.parse target with
  | .ok p => .ok p
  | .error f => .error (.known f)

end Collaborators

end Gateway
