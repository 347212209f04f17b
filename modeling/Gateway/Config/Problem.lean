import Gateway.Config.Basic
import Gateway.Net.Address
import Gateway.Text.Quoted
/-!
# Problems of a configuration

Settings can be well formed and still make no sense. Every rule that a configuration breaks is a
problem of its own, and all of them are reported, in a fixed order.
-/

namespace Gateway.Config

/-- A rule that a configuration breaks. -/
inductive Problem where
  /-- A field holds no socket address. -/
  | invalidAddress (field : String) (value : String)
  /-- A field that must be positive is zero. -/
  | zero (field : String)
  /-- There must be more connections than requests processed at once. -/
  | tooFewConnections (maxConnections concurrency : Nat)
  /-- The effort of compression is out of range. -/
  | gzipLevel (level : Nat)
  /-- Images would be kept for too long. -/
  | ttlTooLarge (secs : Nat)
deriving DecidableEq, Repr

/-- Ten years in seconds: the longest time for which clients may keep an image. -/
def maxTtlSecs : Nat := 10 * 365 * 24 * 60 * 60

/-- The highest effort of compression. -/
def maxGzipLevel : Nat := 9

/-- The numeral of a number. -/
def numeral (n : Nat) : String := String.ofList (Text.decimal n)

/-- The text of a problem. -/
def Problem.text : Problem → String
  | invalidAddress field value =>
    "invalid " ++ field ++ ": " ++ Text.quoted value ++ " is not a socket address"
  | zero field => field ++ " must be greater than zero"
  | tooFewConnections maxConnections concurrency =>
    "listener.max_connections (" ++ numeral maxConnections ++
      ") must be greater than processing.concurrency (" ++ numeral concurrency ++ ")"
  | gzipLevel level => "response.gzip_compression must be between 0 and 9, got " ++ numeral level
  | ttlTooLarge secs =>
    "response.ttl_secs must be at most " ++ numeral maxTtlSecs ++ ", got " ++ numeral secs

/-- A problem, if a rule is broken. -/
def problemIf (broken : Bool) (p : Problem) : List Problem := if broken then [p] else []

/-- Whether a text is a socket address. -/
def isAddress (s : String) : Bool := (SocketAddress.parse? s).isSome

/-- The problem with the numbers of requests and connections, if there is one. -/
def capacityProblems (c : Config) : List Problem :=
  if c.processing.concurrency = 0 then [.zero "processing.concurrency"]
  else problemIf (c.listener.maxConnections ≤ c.processing.concurrency)
    (.tooFewConnections c.listener.maxConnections c.processing.concurrency)

/-- All problems of a configuration. -/
def problems (c : Config) : List Problem :=
  problemIf (!isAddress c.listener.bindAddress)
    (.invalidAddress "listener.bind_address" c.listener.bindAddress) ++
  problemIf (c.observability.metricsEnabled && !isAddress c.observability.metricsAddress)
    (.invalidAddress "observability.metrics_address" c.observability.metricsAddress) ++
  capacityProblems c ++
  problemIf (c.timeouts.readSecs = 0) (.zero "timeouts.read_secs") ++
  problemIf (c.timeouts.writeSecs = 0) (.zero "timeouts.write_secs") ++
  problemIf (maxGzipLevel < c.response.gzipLevel) (.gzipLevel c.response.gzipLevel) ++
  problemIf (maxTtlSecs < c.response.ttlSecs) (.ttlTooLarge c.response.ttlSecs)

end Gateway.Config
