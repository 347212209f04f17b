import Gateway.Config.Load
import Gateway.Download
import Gateway.Net.Listener
/-!
# The command line

The program takes the path of a configuration file and an address to listen on in place of the
configured one, or is asked for help or its version. Arguments are read from left to right: a fault
ends the reading, and so does a question for help or the version. Each option takes one value and
may be given once.

A start ends with an exit code, and what it logs on the way depends on the configured level.
-/

namespace Gateway.CommandLine

/-- What the program is asked to do. -/
inductive Command where
  | help
  | version
  /-- Serve, with a configuration file and an address if they are given. -/
  | serve (config : Option String) (bind : Option String)
deriving DecidableEq, Repr

/-! ### Arguments -/

/-- The options that take a value. -/
inductive Setting where
  | config
  | bind
deriving DecidableEq, Repr

/-- What has been read of the arguments. -/
structure Given where
  config : Option String
  bind : Option String

/-- The value of an option so far. -/
def Given.get? (g : Given) : Setting → Option String
  | .config => g.config
  | .bind => g.bind

/-- Gives an option a value. The path of a file must not be empty. -/
def Given.set? (g : Given) (o : Setting) (v : String) : Option Given :=
  if (g.get? o).isSome then none
  else match o with
    | .config => if v = "" then none else some { g with config := some v }
    | .bind => some { g with bind := some v }

/-- What a single argument is. -/
inductive Argument where
  | help
  | version
  /-- An option whose value is the next argument. -/
  | option (o : Setting)
  /-- An option with its value. -/
  | optionWith (o : Setting) (v : String)
  /-- The end of the options. -/
  | endOfOptions
  /-- None of these. -/
  | unknown

/-- Reads an argument with two dashes, without them. -/
def ofLong (s : List Char) : Argument :=
  let (name, value) := match Text.cutFirst '=' s with
    | some (n, v) => (String.ofList n, some (String.ofList v))
    | none => (String.ofList s, none)
  match name, value with
  | "help", none => .help
  | "version", none => .version
  | "config", none => .option .config
  | "bind", none => .option .bind
  | "config", some v => .optionWith .config v
  | "bind", some v => .optionWith .bind v
  | _, _ => .unknown

/-- Reads an argument with one dash, without it. -/
def ofShort : List Char → Argument
  | 'h' :: _ => .help
  | 'V' :: _ => .version
  | ['c'] => .option .config
  | 'c' :: '=' :: v => .optionWith .config (String.ofList v)
  | 'c' :: v => .optionWith .config (String.ofList v)
  | _ => .unknown

/-- Reads an argument. -/
def ofText (s : String) : Argument :=
  match s.toList with
  | ['-', '-'] => .endOfOptions
  | '-' :: '-' :: r => ofLong r
  | '-' :: r => ofShort r
  | _ => .unknown

/-- Whether an argument can be the value of the option before it. -/
def isValue (s : String) : Bool := s = "-" || s.toList.head? != some '-'

/-- Reads arguments after others. -/
def readFrom? : Given → List String → Option Command
  | g, [] => some (.serve g.config g.bind)
  | g, arg :: rest =>
    match ofText arg with
    | .help => some .help
    | .version => some .version
    | .optionWith o v => (g.set? o v).bind fun g => readFrom? g rest
    | .option o =>
      match rest with
      | v :: rest => if isValue v then (g.set? o v).bind fun g => readFrom? g rest else none
      | [] => none
    | .endOfOptions => if rest.isEmpty then some (.serve g.config g.bind) else none
    | .unknown => none

/-- What arguments ask for, unless they are at fault. -/
def read? (args : List String) : Option Command := readFrom? ⟨none, none⟩ args

/-! ### Starting -/

/-- A line that the program logs or prints. -/
inductive Line where
  | version
  | starting
  | metrics
  | serving
  | stopped
  | complete
deriving DecidableEq, Repr

/-- The text of a line. -/
def Line.text : Line → String
  | version => "image-gateway " ++ Config.version
  | starting => "image-gateway v" ++ Config.version ++ " starting"
  | metrics => "Metrics endpoint listening"
  | serving => "HTTP server starting"
  | stopped => "HTTP server stopped"
  | complete => "Shutdown complete"

/-- The levels at which ordinary log lines are shown, in small letters. -/
def tellingLevels : List String := ["", "info", "debug", "trace", "3", "4", "5"]

/-- Whether ordinary log lines are shown at a configured level. What follows a comma is about other
programs. -/
def isTelling (level : String) : Bool :=
  let own := level.toList.takeWhile (· != ',')
  tellingLevels.contains (String.ofList (own.map Char.toLower))

/-- How the program ends: its exit code and its lines. -/
structure Ending where
  code : Nat
  lines : List Line
deriving DecidableEq, Repr

/-- The exit code after faulty arguments. -/
def usageFault : Nat := 2

/-- The exit code after a start that failed. -/
def startFault : Nat := 1

/-- The exit code after a breakdown. -/
def breakdown : Nat := 101

/-- The configuration that a start uses: that of the file or the standard one, with the address in
place of the configured one if it is given. -/
def configOf (processors : Nat) (files : String → Option Bytes) (config bind : Option String) :
    Except Config.Refusal Config := do
  let c ← match config with
    | some path => Config.load processors (files path)
    | none => .ok (Config.standard processors)
  match bind with
  | some address =>
    Config.validated { c with listener := { c.listener with bindAddress := address } }
  | none => .ok c

/-- Whether the endpoint for measurements is up. -/
def metricsUp (c : Config) : Bool :=
  c.observability.metricsEnabled &&
    (SocketAddress.parse? c.observability.metricsAddress).any fun a => a.ip.isLocal

/-- Serves with a configuration until a signal comes. -/
def serve (c : Config) : Ending :=
  let shown (ls : List Line) : List Line := if isTelling c.observability.logLevel then ls else []
  let begun := .starting :: (if metricsUp c then [.metrics] else [])
  match Download.Client.ofName? c.download.userAgent, Listener.bind c.listener with
  | none, _ => ⟨startFault, shown begun⟩
  | some _, .error _ => ⟨startFault, shown begun⟩
  | some _, .ok l =>
    if l.isPossible && c.processing.concurrency ≤ Admission.capacityLimit then
      ⟨0, shown (begun ++ [.serving, .stopped, .complete])⟩
    else ⟨breakdown, shown begun⟩

/-- Runs the program with arguments on a machine with files, until it ends by itself or by a
signal. -/
def run (processors : Nat) (files : String → Option Bytes) (args : List String) : Ending :=
  match read? args with
  | none => ⟨usageFault, []⟩
  | some .help => ⟨0, []⟩
  | some .version => ⟨0, [.version]⟩
  | some (.serve config bind) =>
    match configOf processors files config bind with
    | .error _ => ⟨startFault, []⟩
    | .ok c => serve c

end Gateway.CommandLine
