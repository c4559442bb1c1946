import Dashboard.Text.Blank
import Dashboard.Text.Ascii
/-!
# Entities

An entity is an external source of data, written as a domain and a name with a point between them.
A bare name belongs to the domain `sensor`. Some domains carry texts, the others numbers.
-/

namespace Dashboard

open Text

namespace Entity

def normalize? (entity : String) : Option String :=
  (nonBlank? entity).map fun e => if e.toList.contains '.' then e else "sensor." ++ e

def isText (entity : String) : Bool := startsWith "text_sensor." entity || startsWith "weather." entity

def slugChar (c : Char) : Char := if c.isAlphanum then c else '_'

/-- The component that holds the state of an entity. -/
def componentId (entity : String) : String := String.ofList (entity.toList.map slugChar)

end Entity

/-- The section of a document that declares an entity. -/
inductive SensorKind where
  | sensor | binarySensor | textSensor
deriving DecidableEq, Repr

namespace SensorKind

def sectionName : SensorKind → String
  | .sensor => "sensor"
  | .binarySensor => "binary_sensor"
  | .textSensor => "text_sensor"

def of (entity : String) : SensorKind :=
  if Entity.isText entity then .textSensor
  else if startsWith "binary_sensor." entity then .binarySensor
  else .sensor

def rank : SensorKind → Nat
  | .sensor => 0
  | .binarySensor => 1
  | .textSensor => 2

end SensorKind

/-- An entity as a widget reads it. -/
structure EntityRead where
  entity : String
  id : String
  isText : Bool
deriving DecidableEq, Repr

namespace EntityRead

def of? (raw : String) : Option EntityRead :=
  (Entity.normalize? raw).map fun e => ⟨e, Entity.componentId e, Entity.isText e⟩

end EntityRead

end Dashboard
