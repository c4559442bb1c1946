import Dashboard.CommandLine.Arguments
import Dashboard.Number.Integer
import Dashboard.Options
import Dashboard.Target
/-!
# Commands

There are three commands: one compiles a saved layout, one rebuilds a layout from a document, and
one lists the kinds of widgets. The options of the compile may stand before or after the name of
the command, where the later place counts.
-/

namespace Dashboard.CommandLine

open Number

structure CompileCommand where
  input : String
  target : Target := .procedural
  all : Bool := false
  output : Option String := none
  report : Bool := false
  strict : Bool := false
deriving DecidableEq, Repr

inductive Command where
  | compile (c : CompileCommand)
  | rebuild (input : String) (output : Option String)
  | listKinds (json : Bool)
deriving DecidableEq, Repr

structure Invocation where
  command : Command
  options : Options := {}
deriving DecidableEq, Repr

namespace Grammar

def checkPath : ValueCheck := fun s => if s.isEmpty then some .missingValue else none

def checkTarget : ValueCheck := fun s => if (Target.ofName? s).isSome then none else some .badValue

def count? (s : String) : Option UInt32 :=
  match readInt64? s.toList with
  | some i => if 0 ≤ i && i.toNat < twoTo 32 then some (UInt32.ofNat i.toNat) else none
  | none => none

def checkCount : ValueCheck := fun s => if (count? s).isSome then none else some .badValue

/-- The parameters that every level has. -/
def shared : List Parameter :=
  [⟨"display-id", none, .option anyValue⟩, ⟨"time-id", none, .option anyValue⟩,
    ⟨"platform", none, .option anyValue⟩, ⟨"refresh", none, .option checkCount⟩,
    ⟨"no-sensors", none, .flag⟩, ⟨"help", some 'h', .help⟩]

def root : Grammar where
  parameters := ⟨"version", some 'V', .version⟩ :: shared
  subcommands := ["compile", "reparse", "plugins", "help"]

def output : Parameter := ⟨"output", some 'o', .option checkPath⟩

def input : Option (String × ValueCheck) := some ("input", checkPath)

def compile : Grammar where
  parameters := [⟨"target", some 't', .option checkTarget⟩, ⟨"all", none, .flag⟩, output,
    ⟨"report", none, .flag⟩, ⟨"strict", none, .flag⟩] ++ shared
  operand := input

def rebuild : Grammar where
  parameters := output :: shared
  operand := input

def listKinds : Grammar where
  parameters := ⟨"json", none, .flag⟩ :: shared

/-- Reads the last level of a command line. -/
def readAll (g : Grammar) (arguments : List String) : Step := do
  let (r, _) ← g.read {} arguments
  r.settle

end Grammar

namespace Command

def input (r : Reading) : Except UsageError String :=
  match r.value? "input" with
  | some path => .ok path
  | none => .error .missingArgument

def compileOf (r : Reading) : Except UsageError Command := do
  let input ← input r
  return .compile {
    input
    target := ((r.value? "target").bind Target.ofName?).getD .procedural
    all := r.hasFlag "all"
    output := r.value? "output"
    report := r.hasFlag "report"
    strict := r.hasFlag "strict" }

def rebuildOf (r : Reading) : Except UsageError Command := do
  let input ← input r
  return .rebuild input (r.value? "output")

/-- Asking for help on something that is no command is an error of its own. -/
def helpOn : List String → UsageError
  | [] => .help
  | [name] => if Grammar.root.subcommands.contains name then .help else .unknownCommand
  | _ => .unknownCommand

def ofArguments (name : String) (arguments : List String) : Except UsageError (Command × Reading) :=
  match name with
  | "compile" => do
    let r ← Grammar.compile.readAll arguments
    return (← compileOf r, r)
  | "reparse" => do
    let r ← Grammar.rebuild.readAll arguments
    return (← rebuildOf r, r)
  | "plugins" => do
    let r ← Grammar.listKinds.readAll arguments
    return (.listKinds (r.hasFlag "json"), r)
  | _ => .error (helpOn arguments)

end Command

namespace Invocation

/-- The options of a compile. What was given at the later level counts. -/
def optionsOf (outer inner : Reading) : Options :=
  let given (name : String) : Option String := (inner.value? name).or (outer.value? name)
  let d : Options := {}
  { displayId := (given "display-id").getD d.displayId
    displayPlatform := (given "platform").getD d.displayPlatform
    timeId := (given "time-id").getD d.timeId
    pageGlobal := d.pageGlobal
    refreshSeconds := ((given "refresh").bind Grammar.count?).getD d.refreshSeconds
    emitSensors := !(given "no-sensors").isSome }

/-- The invocation that the arguments after the program's name stand for. -/
def ofArguments (arguments : List String) : Except UsageError Invocation := do
  match ← Grammar.root.read {} arguments with
  | (outer, some (name, rest)) =>
    let (command, inner) ← Command.ofArguments name rest
    let outer ← outer.settle
    return { command, options := optionsOf outer inner }
  | (outer, none) =>
    let outer ← outer.settle
    .error (if outer.given.isEmpty then .nothingGiven else .missingCommand)

end Invocation

end Dashboard.CommandLine
