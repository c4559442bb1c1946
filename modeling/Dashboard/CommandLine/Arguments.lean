import Dashboard.Text.Ascii
/-!
# Arguments of a command line

A grammar lists the parameters of one level of a command line. Flags and options start with dashes
and may stand anywhere before a double dash; an option takes the next argument as its value, or
what is attached to it. A value is held back until the next argument is known to be one, so that an
argument that nobody knows is reported before a value that is no good. The name of a subcommand
ends the level.
-/

namespace Dashboard.CommandLine

open Text

inductive UsageError where
  | help | version | nothingGiven
  | unknownArgument | unknownCommand
  | missingArgument | missingCommand | missingValue
  | surplusValue | repeated
  | badValue
deriving DecidableEq, Repr

/-- Why a value is refused, if it is. -/
abbrev ValueCheck := String → Option UsageError

inductive ParameterKind where
  | flag
  | option (check : ValueCheck)
  | help
  | version

structure Parameter where
  name : String
  short : Option Char := none
  kind : ParameterKind

structure Grammar where
  parameters : List Parameter
  /-- The one argument without a name, if the level has one. -/
  operand : Option (String × ValueCheck) := none
  subcommands : List String := []

/-- A parameter that waits for its value, or holds a value that has not been checked. -/
structure Pending where
  name : String
  check : ValueCheck
  value : Option String

structure Reading where
  given : List (String × String) := []
  pending : Option Pending := none
  operandSeen : Bool := false

abbrev Step := Except UsageError Reading

namespace Reading

def value? (r : Reading) (name : String) : Option String := r.given.lookup name

def hasFlag (r : Reading) (name : String) : Bool := (r.value? name).isSome

/-- Whether the next argument is the value of an option. -/
def awaitsValue (r : Reading) : Bool :=
  match r.pending with
  | some p => p.value.isNone
  | none => false

def accept (r : Reading) (name : String) (check : ValueCheck) (value : String) : Step :=
  if r.hasFlag name then .error .repeated
  else match check value with
    | some e => .error e
    | none => .ok { r with given := r.given ++ [(name, value)] }

def settle (r : Reading) : Step :=
  match r.pending with
  | none => .ok r
  | some ⟨_, _, none⟩ => .error .missingValue
  | some ⟨name, check, some value⟩ => { r with pending := none }.accept name check value

end Reading

namespace Grammar

def long? (g : Grammar) (name : String) : Option Parameter := g.parameters.find? fun p => p.name == name

def short? (g : Grammar) (c : Char) : Option Parameter := g.parameters.find? fun p => p.short == some c

def anyValue : ValueCheck := fun _ => none

/-- A parameter that stands without a value. -/
def plain (r : Reading) (p : Parameter) : Step := do
  let r ← r.settle
  match p.kind with
  | .flag => r.accept p.name anyValue ""
  | .option check => .ok { r with pending := some ⟨p.name, check, none⟩ }
  | .help => .error .help
  | .version => .error .version

def attached (r : Reading) (p : Parameter) (value : String) : Step :=
  match p.kind with
  | .option check => do (← r.settle).accept p.name check value
  | _ => .error .surplusValue

def longArgument (g : Grammar) (r : Reading) (cs : List Char) : Step :=
  match g.long? (String.ofList (cs.takeWhile (· != '='))) with
  | none => .error .unknownArgument
  | some p =>
    match cs.dropWhile (· != '=') with
    | [] => plain r p
    | _ :: value => attached r p (String.ofList value)

/-- Short parameters in one argument. What follows the letter of an option is its value. -/
def shortArguments (g : Grammar) (r : Reading) : List Char → Step
  | [] => .ok r
  | c :: cs =>
    match g.short? c with
    | none => .error .unknownArgument
    | some p =>
      match p.kind, cs with
      | .option _, '=' :: value => attached r p (String.ofList value)
      | .option _, d :: value => attached r p (String.ofList (d :: value))
      | _, _ => do shortArguments g (← plain r p) cs

/-- An argument that is no level's operand either names no subcommand or is one too many. -/
def surplus (g : Grammar) (afterDashes : Bool) (argument : String) : UsageError :=
  if g.subcommands.isEmpty || (afterDashes && g.subcommands.contains argument) then .unknownArgument
  else .unknownCommand

def operandArgument (g : Grammar) (r : Reading) (afterDashes : Bool) (argument : String) : Step :=
  match g.operand with
  | some (name, check) =>
    if r.operandSeen then .error (g.surplus afterDashes argument)
    else do
      let r ← r.settle
      return { r with pending := some ⟨name, check, some argument⟩, operandSeen := true }
  | none => .error (g.surplus afterDashes argument)

def argument (g : Grammar) (r : Reading) (argument : String) : Step :=
  match argument.toList with
  | '-' :: '-' :: cs => g.longArgument r cs
  | '-' :: c :: cs => g.shortArguments r (c :: cs)
  | _ =>
    match r.pending with
    | some ⟨name, check, none⟩ => .ok { r with pending := some ⟨name, check, some argument⟩ }
    | _ => g.operandArgument r false argument

/-- The arguments after a double dash are operands. -/
def operands (g : Grammar) (r : Reading) : List String → Step
  | [] => .ok r
  | a :: as => do g.operands (← g.operandArgument r true a) as

/-- Reads one level: all arguments, or those before a subcommand, which comes back with the rest. -/
def read (g : Grammar) (r : Reading) :
    List String → Except UsageError (Reading × Option (String × List String))
  | [] => .ok (r, none)
  | a :: as =>
    if !r.awaitsValue && g.subcommands.contains a then .ok (r, some (a, as))
    else if a = "--" then do return (← g.operands r as, none)
    else do g.read (← g.argument r a) as

end Grammar

end Dashboard.CommandLine
