import Gateway.Http.Status
import Gateway.Text.Duration
/-!
# Failures

A request that cannot be answered ends in a failure. It has two messages: the internal one is only
ever logged, the public one is all that a client sees. Collaborators report faults. A fault that is
a failure already keeps its kind, status and messages; any other fault becomes an unexpected
failure, whose internal message names the fault and its nearest causes and whose public message says
nothing.
-/

namespace Gateway

/-- The kinds of failures. -/
inductive FailureKind where
  | invalidMethod
  | invalidSecret
  | parse
  | download
  | timeout
  | processing
  | unexpected
deriving DecidableEq, Repr

/-- The word for a kind in log lines. -/
def FailureKind.word : FailureKind → String
  | .invalidMethod => "invalid_method"
  | .invalidSecret => "invalid_secret"
  | .parse => "parse"
  | .download => "download"
  | .timeout => "timeout"
  | .processing => "processing"
  | .unexpected => "unexpected"

/-- A classified failure of a request. -/
structure Failure where
  kind : FailureKind
  status : Http.Status
  /-- What is logged. -/
  message : String
  /-- What the client sees. -/
  publicMessage : String
deriving DecidableEq, Repr

/-- What a collaborator reports when it fails. -/
inductive Fault where
  /-- A failure that needs no classification. -/
  | known (f : Failure)
  /-- A fault from outside without a cause. -/
  | foreign (text : String)
  /-- A fault from outside with the fault that caused it. -/
  | causedBy (text : String) (cause : Fault)

namespace Fault

/-- The text of a fault. -/
def text : Fault → String
  | known f => f.message
  | foreign s => s
  | causedBy s _ => s

/-- The fault that caused this one, if it is known. -/
def cause? : Fault → Option Fault
  | causedBy _ c => some c
  | _ => none

/-- The texts of all causes, the nearest first. -/
def causes : Fault → List String
  | causedBy _ c => c.text :: c.causes
  | _ => []

/-- How many causes an internal message names. -/
def causeLimit : Nat := 4

/-- The part of an internal message that names up to `room` causes of a fault; an ellipsis stands
for those that are left out. -/
def trail : Nat → Fault → String
  | room, fault =>
    match fault.cause? with
    | none => ""
    | some c =>
      match room with
      | 0 => ": ..."
      | room + 1 => ": " ++ c.text ++ trail room c

end Fault

namespace Failure

/-- The method is neither GET nor OPTIONS. -/
def invalidMethod : Failure :=
  ⟨.invalidMethod, .unprocessable, "Invalid request method", "Method doesn't allowed"⟩

/-- The secret is missing or wrong. -/
def invalidSecret : Failure := ⟨.invalidSecret, .forbidden, "Invalid secret", "Forbidden"⟩

/-- The request names no source image. -/
def parse (message : String) : Failure := ⟨.parse, .notFound, message, "Invalid URL"⟩

/-- The source image cannot be fetched. -/
def download (message : String) : Failure :=
  ⟨.download, .notFound, message, "Image is unreachable"⟩

/-- The time allowed for the request is used up. -/
def timeout (elapsed : Duration) : Failure :=
  ⟨.timeout, .unavailable, "Timeout after " ++ elapsed.text, "Timeout"⟩

/-- The source image cannot be processed. -/
def processing (message : String) : Failure :=
  ⟨.processing, .unprocessable, message, "Error while processing image"⟩

/-- A fault outside the other kinds. -/
def unexpected (fault : Fault) : Failure :=
  ⟨.unexpected, .internalError,
    "Unexpected error: " ++ fault.text ++ fault.trail Fault.causeLimit, "Internal error"⟩

end Failure

/-- The failure that a fault amounts to. -/
def Fault.classify : Fault → Failure
  | .known f => f
  | fault => Failure.unexpected fault

end Gateway
