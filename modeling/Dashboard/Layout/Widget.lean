import Dashboard.Geometry.Alignment
import Dashboard.Layout.Condition
/-!
# Widgets

A widget is one placed element of a page: where it stands, what kind it is, which entities it shows
and a bag of properties that its kind gives a meaning to.
-/

namespace Dashboard

open Json Number

structure Widget where
  id : String
  kind : String
  x : Binary64
  y : Binary64
  width : Binary64
  height : Binary64
  title : Option String := none
  entityId : Option String := none
  secondEntityId : Option String := none
  condition : Condition := {}
  props : Bag := []

namespace Widget

def make (id kind : String) : Widget where
  id := id
  kind := kind
  x := .ofNat 0
  y := .ofNat 0
  width := .ofNat 100
  height := .ofNat 30

def hexChars (n digits : Nat) : List Char :=
  (List.range digits).map fun i => hexDigit (n / twoTo (4 * (digits - 1 - i)) % 16)

/-- A widget whose id comes from a random number. -/
def fresh (random : UInt32) (kind : String) : Widget :=
  make (String.ofList ('w' :: '_' :: hexChars random.toNat 8)) kind

def withGeometry (w : Widget) (x y width height : Binary64) : Widget := { w with x, y, width, height }

def withProp (w : Widget) (key : String) (value : Json) : Widget :=
  { w with props := w.props.put key value }

/-- The box of a widget in whole pixels. -/
def rect (w : Widget) : Rect where
  x := .ofBinary64 w.x
  y := .ofBinary64 w.y
  width := .ofBinary64 w.width
  height := .ofBinary64 w.height

/-- The entity of a widget. The property of that name counts only without the field. -/
def entity? (w : Widget) : Option String :=
  (w.entityId.or ((w.props.find? "entity_id").bind Json.string?)).bind Text.nonBlank?

def record : Record (Condition → Widget) :=
  (fun id kind x y width height title entityId secondEntityId props condition =>
      { id, kind, x, y, width, height, title, entityId, secondEntityId, props, condition })
    <$> .required "id" .string
    <*> .required "type" .string
    <*> .required "x" .real
    <*> .required "y" .real
    <*> .required "width" .real
    <*> .required "height" .real
    <*> .optional "title" .string
    <*> .optional "entity_id" .string
    <*> .optional "entity_id_2" .string
    <*> .withDefault "props" .bag []

def decoder : Decoder Widget := fun o s => do
  let (widget, rest) ← record.openEnded "struct Widget" o s
  let condition ← Condition.record.ofRest rest
  return widget condition

def toJson (w : Widget) : Json :=
  .object ([("id", .string w.id), ("type", .string w.kind), ("x", .ofReal w.x), ("y", .ofReal w.y),
      ("width", .ofReal w.width), ("height", .ofReal w.height)] ++
    Condition.fieldIf "title" .string w.title ++ Condition.fieldIf "entity_id" .string w.entityId ++
    Condition.fieldIf "entity_id_2" .string w.secondEntityId ++ w.condition.toFields ++
    [("props", .object w.props)])

end Widget

end Dashboard
