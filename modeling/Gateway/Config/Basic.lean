/-!
# Configuration

The settings of the gateway, section by section, with the values they have when nothing is set. Two
of those depend on the number of processors: twice as many requests are processed at once as there
are processors, and ten times that many connections are kept open.
-/

namespace Gateway

/-- Where and how the gateway listens. -/
structure Config.Listener where
  bindAddress : String
  /-- How many connections are kept open at once. -/
  maxConnections : Nat
deriving DecidableEq, Repr

/-- How much is processed at once. -/
structure Config.Processing where
  /-- How many requests may download and process images at once. -/
  concurrency : Nat
deriving DecidableEq, Repr

/-- How long things may take. -/
structure Config.Timeouts where
  /-- Seconds to read the head of a request. -/
  readSecs : Nat
  /-- Seconds to answer a request, from its admission on. -/
  writeSecs : Nat
deriving DecidableEq, Repr

/-- How responses are encoded. -/
structure Config.Response where
  /-- Seconds for which clients may keep an image. -/
  ttlSecs : Nat
  /-- The effort of compression; zero turns it off. -/
  gzipLevel : Nat
  /-- Whether responses carry validators. -/
  etags : Bool
deriving DecidableEq, Repr

/-- Who may use the gateway. -/
structure Config.Security where
  secret : Option String
  allowOrigin : Option String
deriving DecidableEq, Repr

/-- What is logged and measured. -/
structure Config.Observability where
  logLevel : String
  metricsEnabled : Bool
  metricsAddress : String
deriving DecidableEq, Repr

/-- How source images are fetched. -/
structure Config.Download where
  userAgent : String
deriving DecidableEq, Repr

/-- The settings of the gateway. -/
structure Config where
  listener : Config.Listener
  processing : Config.Processing
  timeouts : Config.Timeouts
  response : Config.Response
  security : Config.Security
  observability : Config.Observability
  download : Config.Download
deriving DecidableEq, Repr

namespace Config

/-- The version of the gateway. -/
def version : String := "0.1.0"

/-- The concurrency on a machine with a number of processors, unless it is set. -/
def standardConcurrency (processors : Nat) : Nat := processors * 2

/-- The settings on a machine with a number of processors when nothing is set. -/
def standard (processors : Nat) : Config where
  listener := ⟨"0.0.0.0:8080", standardConcurrency processors * 10⟩
  processing := ⟨standardConcurrency processors⟩
  timeouts := ⟨10, 10⟩
  response := ⟨3600, 0, false⟩
  security := ⟨none, none⟩
  observability := ⟨"info", false, "0.0.0.0:9090"⟩
  download := ⟨"image-gateway/" ++ version⟩

/-- A text that is not set if it is empty. -/
def nonempty (s : Option String) : Option String := s.filter (· != "")

/-- The settings with empty optional texts left out. -/
def normalize (c : Config) : Config :=
  { c with security := ⟨nonempty c.security.secret, nonempty c.security.allowOrigin⟩ }

end Config

end Gateway
