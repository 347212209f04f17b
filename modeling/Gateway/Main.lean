import Gateway.CommandLine
/-!
# The program

Reads the arguments and the configuration file, prints the lines of the run, and waits for the end
of its input before it stops.
-/

namespace Gateway

/-- The number of processors that the standard settings are made for. -/
def processorCount : Nat := 1

/-- The content of a file, if it can be read. -/
def readFile? (path : String) : IO (Option Bytes) := do
  try
    let content ← IO.FS.readBinFile path
    return some content.toList
  catch _ => return none

/-- The path of the configuration file in a command. -/
def configPath? : Option CommandLine.Command → Option String
  | some (.serve config _) => config
  | _ => none

end Gateway

/-- Runs the gateway. -/
def main (args : List String) : IO UInt32 := do
  let content ← match Gateway.configPath? (Gateway.CommandLine.read? args) with
    | some path => Gateway.readFile? path
    | none => pure none
  let ending := Gateway.CommandLine.run Gateway.processorCount (fun _ => content) args
  for line in ending.lines do
    if line = .stopped then
      let _ ← (← IO.getStdin).readToEnd
    IO.println line.text
  return ending.code.toUInt32
