import Gateway.Config.Problem
import Gateway.Config.Reader
/-!
# Loading a configuration

A configuration file is read, understood and judged. The result is a configuration without problems,
or the reason for which the file is refused.
-/

namespace Gateway.Config

/-- Why a configuration is refused. -/
inductive Refusal where
  /-- The file cannot be read. -/
  | unreadable (cause : String)
  /-- The text is no TOML, or a value has the wrong type. -/
  | malformed
  /-- The configuration has problems. -/
  | invalid (problems : List Problem)
deriving DecidableEq, Repr

/-- The texts of problems with commas between them. -/
def listed (ps : List Problem) : String := String.intercalate ", " (ps.map Problem.text)

/-- The text of a refusal. -/
def Refusal.text : Refusal → String
  | unreadable cause => "IO error: " ++ cause
  | malformed => "Parse error"
  | invalid ps => "Validation failed: " ++ listed ps

/-- A configuration, unless it has problems. -/
def validated (c : Config) : Except Refusal Config :=
  match c.problems with
  | [] => .ok c
  | ps => .error (.invalid ps)

/-- The configuration of a text on a machine with a number of processors. -/
def parse (processors : Nat) (text : String) : Except Refusal Config :=
  match (Toml.parse? text).bind (ofMembers? (standard processors)) with
  | some c => validated c.normalize
  | none => .error .malformed

/-- The complaint about a file that does not exist. -/
def missingFile : String := "No such file or directory (os error 2)"

/-- The complaint about a file that is no text. -/
def undecodable : String := "stream did not contain valid UTF-8"

/-- The configuration of a file, of which the content is given if it exists. -/
def load (processors : Nat) (file : Option Bytes) : Except Refusal Config :=
  match file with
  | none => .error (.unreadable missingFile)
  | some bytes =>
    match Utf8.toString? bytes with
    | none => .error (.unreadable undecodable)
    | some text => parse processors text

end Gateway.Config
