import Gateway.Net.Listener
import Gateway.Service.Basic
/-!
# The server

A server listens, serves its connections, and stops when it is told to: it then accepts no more and
waits until the connections that are open have been answered. Whoever started it waits for its end
once.
-/

namespace Gateway

/-- A server: what it serves and where, whether it has been told to stop, how many connections are
open, and whether its end has been waited for. -/
structure Server where
  service : Service
  listener : Listener
  stopping : Bool
  connections : Nat
  joined : Bool

namespace Server

/-- A server that has just begun to listen. -/
def start (service : Service) (listener : Listener) : Server := ⟨service, listener, false, 0, false⟩

/-- Whether the server has stopped. -/
def hasStopped (s : Server) : Bool := s.stopping && s.connections == 0

/-- Tells the server to stop. -/
def stop (s : Server) : Server := { s with stopping := true }

/-- What waiting for the end of a server yields. -/
inductive Join where
  /-- It has ended. -/
  | done
  /-- Its end has been waited for already. -/
  | gone
  /-- It has not stopped. -/
  | waiting
deriving DecidableEq, Repr

/-- Waits for the end of the server. -/
def join (s : Server) : Server × Join :=
  if s.joined then (s, .gone)
  else if s.hasStopped then ({ s with joined := true }, .done)
  else (s, .waiting)

end Server

end Gateway
