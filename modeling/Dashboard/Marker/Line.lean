import Dashboard.Marker.Text
import Dashboard.Layout.Widget
/-!
# Marker lines

Before the drawing code of a widget stands a comment that carries everything needed to build the
widget again: its kind, its box, its own fields and its properties. A kind may shorten the names of
its properties by aliases. Reading a property back is guided by the default value of that property.
-/

namespace Dashboard

open Text Json Number

/-- Pairs of a property and the short key that stands for it in markers. -/
abbrev Aliases := List (String × String)

namespace Aliases

def keyOf (aliases : Aliases) (property : String) : String :=
  match aliases.find? fun a => a.1 == property with
  | some a => a.2
  | none => property

/-- The property that a key stands for. Short and long names are both understood. -/
def propertyOf (aliases : Aliases) (key : String) : String :=
  match aliases.find? fun a => a.2 == key with
  | some a => a.1
  | none => key

end Aliases

structure Marker where
  kind : String
  fields : Table String
deriving DecidableEq, Repr

namespace Marker

/-- Keys that describe the widget itself rather than its properties. -/
def reservedKeys : List String :=
  ["id", "x", "y", "w", "h", "title", "label", "ent", "entity", "ent2", "entity_2", "cond_ent",
    "cond_op", "cond_state", "cond_min", "cond_max"]

def encodeValue? : Json → Option String
  | .null => none
  | .bool b => some (if b then "true" else "false")
  | .number n => some n.text
  | .string s => some (encodeText s)
  | v => some (encodeText v.compact)

def written (key value : String) : String := " " ++ key ++ ":" ++ value

def writtenIf (key : String) (value : Option String) : String :=
  match value with
  | some v => written key (encodeText v)
  | none => ""

def notBlank (value : Option String) : Option String := value.filter fun s => !isBlankText s

def writtenBound (key : String) (bound : Option Binary64) : String :=
  match bound with
  | some x => if x.isFinite then written key x.documentText else ""
  | none => ""

def writtenCondition (c : Condition) : String :=
  match c.entity? with
  | none => ""
  | some entity =>
    written "cond_ent" (encodeText entity) ++ writtenIf "cond_op" (notBlank c.operator) ++
      writtenIf "cond_state" c.state ++ writtenBound "cond_min" c.lowest ++
      writtenBound "cond_max" c.highest

def writtenProp (aliases : Aliases) (prop : String × Json) : String :=
  match encodeValue? prop.2 with
  | some v => written (aliases.keyOf prop.1) v
  | none => ""

def encode (w : Widget) (props : Bag) (aliases : Aliases) : String :=
  let r := w.rect
  "// widget:" ++ w.kind ++ written "id" (encodeText w.id) ++ written "type" (encodeText w.kind) ++
    written "x" (intText r.x.toInt) ++ written "y" (intText r.y.toInt) ++
    written "w" (intText r.width.toInt) ++ written "h" (intText r.height.toInt) ++
    writtenIf "title" (notBlank w.title) ++ writtenIf "ent" (notBlank w.entityId) ++
    writtenIf "ent2" (notBlank w.secondEntityId) ++ writtenCondition w.condition ++
    String.join (props.map (writtenProp aliases))

/-- The marker of a comment line, if it is one. -/
def ofLine? (line : String) : Option Marker := do
  let rest ← ['/', '/'].isPrefixOf? (trimChars line.toList)
  let rest ← "widget:".toList.isPrefixOf? (skipBlank rest)
  let kind := rest.takeWhile isKeyChar
  if kind.isEmpty then none
  else
    return {
      kind := String.ofList kind
      fields := Table.ofList (fieldsOf (rest.dropWhile isKeyChar)) }

def get? (m : Marker) (key : String) : Option String := m.fields.find? key

def getFirst? (m : Marker) (keys : List String) : Option String := keys.findSome? m.get?

def readBool? (raw : String) : Option Bool :=
  let word := lower (trim raw)
  if ["true", "1", "yes", "on"].contains word then some true
  else if ["false", "0", "no", "off"].contains word then some false
  else none

def readNumeral? (raw : String) : Option Numeral :=
  let cs := trimChars raw.toList
  match readInt64? cs with
  | some i => some (.whole i)
  | none => ((Binary64.read? cs).filter Binary64.isFinite).map .real

/-- A value whose kind nobody knows. -/
def inferValue (raw : String) : Json :=
  if raw = "true" then .bool true
  else if raw = "false" then .bool false
  else match readNumeral? raw with
    | some n => .number n
    | none => .string raw

/-- A value of the kind of a template, if the text can be read as that kind. -/
def decodeValue? (raw : String) : Option Json → Option Json
  | some (.bool _) => (readBool? raw).map .bool
  | some (.number _) => (readNumeral? raw).map .number
  | some (.string _) => some (.string raw)
  | some (.array _) | some (.object _) => (Json.ofText Decoder.json raw).toOption
  | some .null | none => some (inferValue raw)

end Marker

end Dashboard
