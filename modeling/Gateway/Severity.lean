import Gateway.Http.Status
/-!
# Severity

How bad a response is for the one who reads the log: the server's faults are severe, the client's
deserve a warning, and everything else is normal.
-/

namespace Gateway

/-- How bad a response is. -/
inductive Severity where
  | severe
  | warning
  | normal
deriving DecidableEq, Repr

namespace Severity

/-- The severity of a response with a given status. -/
def ofStatus (s : Http.Status) : Severity :=
  if 500 ≤ s.code then severe else if 400 ≤ s.code then warning else normal

/-- The word for a severity. -/
def word : Severity → String
  | severe => "Severe"
  | warning => "Warning"
  | normal => "Normal"

end Severity

/-- The level of a log entry. -/
inductive Level where
  | error
  | warn
  | info
deriving DecidableEq, Repr

/-- The word for a level. -/
def Level.word : Level → String
  | .error => "ERROR"
  | .warn => "WARN"
  | .info => "INFO"

/-- The level at which a response of some severity is logged. -/
def Severity.level : Severity → Level
  | .severe => .error
  | .warning => .warn
  | .normal => .info

end Gateway
