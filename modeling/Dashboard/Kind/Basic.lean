import Dashboard.Document.Declarative
import Dashboard.Document.Procedural
import Dashboard.Document.Retained
import Dashboard.Layout.Page
/-!
# Kinds of widgets

A kind says what its properties are and how its widgets appear in each document. Whatever a kind
draws goes through the resources of the compile. An export may fail; what it registered before is
then for its caller to forget.
-/

namespace Dashboard

open Json Text

inductive ExportError where
  | props (cause : LayoutError)
  | invalidValue (widget field reason : String)
  | missingEntity (widget : String)
  | serialization (cause : DecodeError)

def ExportError.message : ExportError → String
  | .props cause => cause.message
  | .invalidValue widget field reason =>
    "Invalid value for " ++ field ++ " on widget " ++ widget ++ ": " ++ reason
  | .missingEntity widget => "Widget " ++ widget ++ " has no entity"
  | .serialization cause => "Serialization error: " ++ cause.message

inductive Capability where
  | renderHint | exportProcedural | exportRetained | exportDeclarative | collectResources
  | resolveEntities
deriving DecidableEq, Repr

namespace Capability

def name : Capability → String
  | .renderHint => "render_hint"
  | .exportProcedural => "export_procedural"
  | .exportRetained => "export_retained_gui"
  | .exportDeclarative => "export_declarative"
  | .collectResources => "collect_resources"
  | .resolveEntities => "resolve_entities"

/-- The capability that serves a target. -/
def forTarget : Target → Capability
  | .procedural => .exportProcedural
  | .retained => .exportRetained
  | .declarative _ => .exportDeclarative

end Capability

/-- What an editing surface shows in the place of a widget. -/
structure Hint where
  flex : Option FlexAnchor := none
  color : Option String := none
  fill : Option String := none
  fontSize : Option UInt32 := none
  text : Option String := none
deriving DecidableEq, Repr

namespace Hint

def toJson (h : Hint) : Json :=
  .object (Condition.fieldIf "flex" FlexAnchor.toJson h.flex ++
    Condition.fieldIf "color" .string h.color ++ Condition.fieldIf "fill" .string h.fill ++
    Condition.fieldIf "font_size" (fun n => Json.ofNat n.toNat) h.fontSize ++
    Condition.fieldIf "text" .string h.text)

end Hint

structure Descriptor where
  id : String
  name : String
  category : String
  targets : List Target
  capabilities : List Capability
  defaults : Bag

namespace Descriptor

def supports (d : Descriptor) (c : Capability) : Bool := d.capabilities.contains c

def supportsTarget (d : Descriptor) (t : Target) : Bool := d.targets.contains t

def mergedProps (d : Descriptor) (w : Widget) : Bag := Bag.overlay d.defaults w.props

def toJson (d : Descriptor) : Json :=
  .object [("id", .string d.id), ("name", .string d.name), ("category", .string d.category),
    ("supported_modes", .ofStrings (d.targets.map Target.name)),
    ("capabilities", .ofStrings (d.capabilities.map Capability.name)), ("defaults", .object d.defaults)]

end Descriptor

/-- The properties of a kind: their defaults, how they are written and how they are read. -/
structure Schema (P : Type) where
  default : P
  fields : P → List (String × Json)
  record : Record P

namespace Schema

variable {P : Type}

def bag (s : Schema P) (p : P) : Bag := Table.ofList (s.fields p)

def defaults (s : Schema P) : Bag := s.bag s.default

/-- The properties of a widget, laid over the defaults. -/
def read (s : Schema P) (w : Widget) : Except LayoutError P :=
  match Json.ofJson (s.record.closed "") (.object (Bag.overlay s.defaults w.props)) with
  | .ok p => .ok p
  | .error e => .error (.invalidProps w.id e)

def readForExport (s : Schema P) (w : Widget) : Except ExportError P :=
  (s.read w).mapError ExportError.props

end Schema

/-- A computation that registers resources and may fail. -/
abbrev Emission (α : Type) := ExceptT ExportError (StateM Resources) α

namespace Emission

def ofExcept {α : Type} (e : Except ExportError α) : Emission α := ExceptT.mk (pure e)

def register {α : Type} (f : Resources → α × Resources) : Emission α := modifyGet f

def runWith {α : Type} (e : Emission α) (r : Resources) : Except ExportError α × Resources :=
  StateT.run (m := Id) (ExceptT.run e) r

end Emission

structure WidgetKind where
  descriptor : Descriptor
  aliases : Aliases := []
  typed : Widget → Except LayoutError Bag
  hint : Bool → Widget → Except ExportError Hint := fun _ _ => .ok {}
  collect : Setting → Widget → Emission Unit := fun _ _ => pure ()
  procedural : Setting → Widget → Emission (List String) := fun _ _ => pure []
  retained : Setting → Resources → Widget → Except ExportError (List RetainedNode) :=
    fun _ _ _ => .ok []
  declarative : Setting → Resources → Flavor → Widget → Except ExportError (List Instruction) :=
    fun _ _ _ _ => .ok []
  resolve : Setting → List Widget → Emission Unit := fun _ _ => pure ()

namespace WidgetKind

def id (k : WidgetKind) : String := k.descriptor.id

end WidgetKind

namespace Kind

def stringField (name : String) (default : String) : Record String :=
  .withDefault name .string default

def countField (name : String) (default : UInt32) : Record UInt32 := .withDefault name .uint32 default

def byteField (name : String) (default : UInt8) : Record UInt8 := .withDefault name .uint8 default

def flagField (name : String) (default : Bool) : Record Bool := .withDefault name .bool default

def pixelField (name : String) (default : Pixel) : Record Pixel := .withDefault name .int32 default

def count (n : UInt32) : Json := .ofNat n.toNat

def byte (n : UInt8) : Json := .ofNat n.toNat

def pixelText (p : Pixel) : String := Number.intText p.toInt

def countText (n : UInt32) : String := Number.natText n.toNat

/-- A drawing call with its arguments. -/
def call (name : String) (arguments : List String) : String :=
  "it." ++ name ++ "(" ++ joined ", " arguments ++ ");"

def componentRef (id : String) : String := "id(" ++ id ++ ")"

/-- The conversion of a state by its kind: texts as they are, numbers with so many places. -/
def stateFormat (read : EntityRead) (precision : UInt8) : String :=
  if read.isText then "%s" else "%." ++ Number.natText precision.toNat ++ "f"

def stateArgument (read : EntityRead) : String :=
  componentRef read.id ++ (if read.isText then ".state.c_str()" else ".state")

/-- The body of a lambda that answers with the state as a text. -/
def stateLambda (read : EntityRead) (precision : UInt8) : String :=
  if read.isText then "return " ++ stateArgument read ++ ";"
  else "return str_sprintf(\"" ++ stateFormat read precision ++ "\", " ++ stateArgument read ++
    ").c_str();"

def stateTemplate (read : EntityRead) : String := "\x7b\x7b states('" ++ read.entity ++ "') \x7d\x7d"

def nowTemplate (pattern : String) : String :=
  "\x7b\x7b now().strftime('" ++ pattern ++ "') \x7d\x7d"

def entityRead? (w : Widget) : Option EntityRead := w.entity?.bind EntityRead.of?

def registerEntity (s : Setting) (id : String) (entity : Option String) (r : Resources) : Resources :=
  match entity.bind Entity.normalize? with
  | some e => r.registerRefresh s e id
  | none => r

def registerEntities (s : Setting) (r : Resources) (w : Widget) : Resources :=
  registerEntity s w.id w.secondEntityId (registerEntity s w.id w.entity? r)

/-- Lets every widget be drawn again when one of its entities changes. -/
def resolveWidgets (s : Setting) (ws : List Widget) : Emission Unit :=
  modify fun r => ws.foldl (registerEntities s) r

end Kind

end Dashboard
