import Dashboard.Resources
/-!
# Font and entity sections

The firmware documents begin with the fonts and with a declaration for every entity. Declarations
are grouped by the section that they belong to, and within a section they are in the order of their
component ids.
-/

namespace Dashboard

open Number

structure SensorDecl where
  kind : SensorKind
  id : String
  entityId : String
  actions : List String
deriving DecidableEq, Repr

namespace SensorDecl

def of (entity : String) (actions : List String) : SensorDecl where
  kind := .of entity
  id := Entity.componentId entity
  entityId := entity
  actions := actions

def notAfter (a b : SensorDecl) : Bool :=
  a.kind.rank < b.kind.rank || (a.kind.rank == b.kind.rank && !(b.id < a.id))

/-- One declaration for each registered entity, in document order. -/
def ofTriggers (t : Triggers) : List SensorDecl :=
  ((t.numeric ++ t.text).map fun e => of e.1 (Table.keys e.2)).mergeSort notAfter

def toJson (d : SensorDecl) : Json :=
  .object [("kind", .string d.kind.sectionName), ("id", .string d.id),
    ("entity_id", .string d.entityId), ("actions", .ofStrings d.actions)]

def actionLines (actions : List String) : List String :=
  if actions.isEmpty then []
  else "    on_value:" :: "      then:" :: actions.map ("        - " ++ ·)

def bodyLines (d : SensorDecl) : List String :=
  ["  - platform: homeassistant", "    id: " ++ d.id, "    entity_id: " ++ d.entityId,
    "    internal: true"] ++ actionLines d.actions

def headLines (previous : Option SensorKind) (kind : SensorKind) : List String :=
  match previous with
  | none => [kind.sectionName ++ ":"]
  | some k => if k = kind then [] else ["", kind.sectionName ++ ":"]

def linesFrom (previous : Option SensorKind) : List SensorDecl → List String
  | [] => if previous.isSome then [""] else []
  | d :: ds => headLines previous d.kind ++ bodyLines d ++ linesFrom (some d.kind) ds

def sectionLines (ds : List SensorDecl) : List String := linesFrom none ds

end SensorDecl

namespace FontRequest

def declarationLines (f : FontRequest) : List String :=
  ["  - file: \"" ++ f.source ++ "\"", "    id: " ++ f.id, "    size: " ++ natText f.size.toNat]

def sectionLines (fonts : List FontRequest) : List String :=
  if fonts.isEmpty then [] else "font:" :: fonts.flatMap declarationLines ++ [""]

end FontRequest

end Dashboard
