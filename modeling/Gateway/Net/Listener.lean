import Gateway.Admission
import Gateway.Config.Basic
import Gateway.Net.Address
/-!
# Listening

The gateway listens on one address and keeps a fixed number of connections open at once. Only an
address of this machine can be listened on.
-/

namespace Gateway

/-- A place to accept connections at. -/
structure Listener where
  address : SocketAddress
  maxConnections : Nat
deriving DecidableEq, Repr

namespace Listener

/-- Why an address cannot be listened on. -/
inductive Cause where
  /-- The text is no socket address. -/
  | noAddress
  /-- The address belongs to another machine. -/
  | notLocal
deriving DecidableEq, Repr

/-- The text of a cause. -/
def Cause.text : Cause → String
  | noAddress => "invalid socket address syntax"
  | notLocal => "Cannot assign requested address (os error 99)"

/-- The message about an address that cannot be listened on. -/
def message (address : String) (cause : Cause) : String :=
  "can't listen on " ++ address ++ ": " ++ cause.text

/-- Listens at the configured address. -/
def bind (c : Config.Listener) : Except Cause Listener :=
  match SocketAddress.parse? c.bindAddress with
  | none => .error .noAddress
  | some address =>
    if address.ip.isLocal then .ok ⟨address, c.maxConnections⟩ else .error .notLocal

/-- Whether there can be as many connections as are asked for. -/
def isPossible (l : Listener) : Bool := l.maxConnections ≤ Admission.capacityLimit

end Listener

end Gateway
