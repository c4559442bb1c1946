import Dashboard.CommandLine.Command
import Dashboard.CommandLine.Folder
import Dashboard.Compile.Layout
import Dashboard.Rebuild.Layout
/-!
# Running commands

From the text of its input a command makes a plan: what it prints and writes, step by step, and
whether it fails in the end. A plan is carried out until a step fails; what was printed, made and
written before stays. The same plan can be carried out on a folder that is a value.
-/

namespace Dashboard.CommandLine

open Number Text

/-- The messages of a failure, the outermost first. -/
abbrev Failure := List String

inductive Effect where
  | print (text : String)
  | makeFolder (path : String)
  | write (path text : String)
deriving DecidableEq, Repr

structure Plan where
  effects : List Effect := []
  failure : Option Failure := none
deriving DecidableEq, Repr

namespace Plan

def failed (f : Failure) : Plan := { failure := some f }

end Plan

/-- Ends a printed text with a line feed. -/
def endLine (text : String) : String :=
  if text.toList.getLast? == some '\n' then text else text ++ "\n"

/-- Puts a text into a file, or prints it where no file is named. -/
def Effect.output (path : Option String) (text : String) : Effect :=
  match path with
  | some p => .write p text
  | none => .print (endLine text)

namespace CompileCommand

def render (c : CompileCommand) (r : Report) : String :=
  if c.report then r.toJson.spread else r.output.text

def extension (c : CompileCommand) : Target → String
  | .declarative _ => "json"
  | _ => if c.report then "json" else "yaml"

def fileName (c : CompileCommand) (t : Target) : String := "layout." ++ t.name ++ "." ++ c.extension t

/-- The effects for one of several targets. -/
def effectsOf (c : CompileCommand) (r : Report) : List Effect :=
  match c.output with
  | some folder => [.write (Path.join folder (c.fileName r.target)) (c.render r)]
  | none => [.print ("--- " ++ r.target.name ++ "\n"), .output none (c.render r)]

def folderEffects (c : CompileCommand) : List Effect :=
  match c.output with
  | some folder => [.makeFolder folder]
  | none => []

def reports (c : CompileCommand) (o : Options) (l : Layout) : List Report :=
  if c.all then Registry.compileAll .builtin o l else [Registry.compile .builtin o l c.target]

def effects (c : CompileCommand) (rs : List Report) : List Effect :=
  if c.all then c.folderEffects ++ rs.flatMap c.effectsOf
  else rs.map fun r => .output c.output (c.render r)

/-- A strict compile fails after its output if there is any diagnostic. -/
def strictFailure (c : CompileCommand) (rs : List Report) : Option Failure :=
  let count := total (rs.map fun r => r.diagnostics.length)
  if c.strict && 0 < count then some [natText count ++ " problem(s) reported while compiling"]
  else none

def plan (c : CompileCommand) (o : Options) (text : String) : Plan :=
  match Json.ofText Layout.decoder text with
  | .error cause =>
    .failed ["Invalid layout in " ++ c.input, (LayoutError.serialization cause).message, cause.message]
  | .ok l =>
    let rs := c.reports o l
    { effects := c.effects rs, failure := c.strictFailure rs }

end CompileCommand

/-- A text with blanks after it up to a width. -/
def padded (width : Nat) (s : String) : String := s ++ spaces (width - s.length)

def kindLine (d : Descriptor) : String :=
  padded 14 d.id ++ " " ++ padded 12 d.name ++ " " ++ padded 10 d.category ++ " " ++
    joined "," (d.targets.map Target.name) ++ "\n"

def kindList (json : Bool) : String :=
  if json then Registry.builtin.toJson.spread ++ "\n"
  else String.join (Registry.builtin.descriptors.map kindLine)

namespace Command

def input? : Command → Option String
  | .compile c => some c.input
  | .rebuild input _ => some input
  | .listKinds _ => none

/-- What a command does with the text of its input. -/
def plan (o : Options) (text : String) : Command → Plan
  | .compile c => c.plan o text
  | .rebuild _ output =>
    { effects := [.output output (Layout.ofConfiguration .builtin text).1.save] }
  | .listKinds json => { effects := [.print (kindList json)] }

end Command

/-! ## In a folder that is a value -/

structure Outcome where
  printed : String := ""
  folder : Folder
  failure : Option Failure := none
deriving DecidableEq, Repr

namespace Effect

def apply (o : Outcome) : Effect → Outcome
  | .print text => { o with printed := o.printed ++ text }
  | .makeFolder path =>
    let (folder, error) := o.folder.createAll path
    { o with folder, failure := error.map fun e => ["Failed to create " ++ path, e.message] }
  | .write path text =>
    match o.folder.write path text with
    | .ok folder => { o with folder }
    | .error e => { o with failure := some ["Failed to write " ++ path, e.message] }

end Effect

namespace Plan

def carryOut (failure : Option Failure) (o : Outcome) : List Effect → Outcome
  | [] => { o with failure }
  | e :: es =>
    let o := e.apply o
    if o.failure.isSome then o else carryOut failure o es

end Plan

namespace Invocation

def inputText (i : Invocation) (f : Folder) : Except Failure String :=
  match i.command.input? with
  | none => .ok ""
  | some path =>
    match f.read path with
    | .ok text => .ok text
    | .error e => .error ["Failed to read " ++ path, e.message]

def run (i : Invocation) (f : Folder) : Outcome :=
  match i.inputText f with
  | .error failure => { folder := f, failure := some failure }
  | .ok text =>
    let p := i.command.plan i.options text
    Plan.carryOut p.failure { folder := f } p.effects

end Invocation

end Dashboard.CommandLine
