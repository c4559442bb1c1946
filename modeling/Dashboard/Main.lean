import Dashboard.CommandLine.Run
/-!
# The program

Reads the command line, carries out its plan on the file system, and reports a failure with the
causes below it. The path `-` stands for the standard input.
-/

open Dashboard.CommandLine

namespace Dashboard.CommandLine

def UsageError.message : UsageError → String
  | .help | .nothingGiven =>
    "Usage: dashboard [OPTIONS] <compile INPUT | reparse INPUT | plugins>\n\n" ++
      "compile: [-t TARGET] [--all] [-o OUTPUT] [--report] [--strict]\n" ++
      "reparse: [-o OUTPUT]\nplugins: [--json]\n\n" ++
      "Options: [--display-id ID] [--time-id ID] [--platform NAME] [--refresh SECONDS] [--no-sensors]"
  | .version => "dashboard 0.2.0"
  | .unknownArgument => "error: unexpected argument"
  | .unknownCommand => "error: unrecognized subcommand"
  | .missingArgument => "error: the input is missing"
  | .missingCommand => "error: a subcommand is required"
  | .missingValue => "error: a value is required"
  | .surplusValue => "error: a flag takes no value"
  | .repeated => "error: an argument cannot be used multiple times"
  | .badValue => "error: invalid value"

partial def readStream (s : IO.FS.Stream) (text : String) : IO String := do
  let line ← s.getLine
  if line.isEmpty then return text else readStream s (text ++ line)

def readInput (path : String) : IO String := do
  if path = "-" then readStream (← IO.getStdin) "" else IO.FS.readFile path

def Effect.perform : Effect → IO Unit
  | .print text => IO.print text
  | .makeFolder path => IO.FS.createDirAll path
  | .write path text => IO.FS.writeFile path text

/-- What is said when an effect fails. -/
def Effect.failureMessage : Effect → String
  | .print _ => "Failed to print"
  | .makeFolder path => "Failed to create " ++ path
  | .write path _ => "Failed to write " ++ path

def report : Failure → IO UInt32
  | [] => return 0
  | message :: causes => do
    IO.eprintln ("Error: " ++ message)
    unless causes.isEmpty do IO.eprintln "\nCaused by:"
    causes.forM fun cause => IO.eprintln ("    " ++ cause)
    return 1

def Plan.perform (p : Plan) : IO UInt32 := do
  for e in p.effects do
    try e.perform
    catch cause => return ← report [e.failureMessage, toString cause]
  report (p.failure.getD [])

def Invocation.perform (i : Invocation) : IO UInt32 := do
  match i.command.input? with
  | none => (i.command.plan i.options "").perform
  | some path =>
    match ← (readInput path).toBaseIO with
    | .ok text => (i.command.plan i.options text).perform
    | .error cause => report ["Failed to read " ++ path, toString cause]

def UsageError.report (e : UsageError) : IO UInt32 := do
  if e = .help || e = .version then
    IO.println e.message
    return 0
  else
    IO.eprintln e.message
    return 2

end Dashboard.CommandLine

def main (arguments : List String) : IO UInt32 :=
  match Invocation.ofArguments arguments with
  | .ok i => i.perform
  | .error e => e.report
