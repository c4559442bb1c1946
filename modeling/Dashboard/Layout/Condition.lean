import Dashboard.Text.Blank
import Dashboard.Json.Decode
/-!
# Visibility conditions

A condition compares the state of an entity with a state or with bounds. It is active when it names
an entity. A bound may be written as a number or as a text that reads as one; anything else is no
bound.
-/

namespace Dashboard

open Json Number

structure Condition where
  entityId : Option String := none
  operator : Option String := none
  state : Option String := none
  lowest : Option Binary64 := none
  highest : Option Binary64 := none
deriving DecidableEq, Inhabited

namespace Condition

def entity? (c : Condition) : Option String := c.entityId.bind Text.nonBlank?

def isActive (c : Condition) : Bool := c.entity?.isSome

def boundOf : Json → Option Binary64
  | .number n => some n.toBinary64
  | .string s => Binary64.read? (Text.trimChars s.toList)
  | _ => none

def bound : Decoder (Option Binary64) := Decoder.json.map boundOf

def record : Record Condition :=
  Condition.mk <$> .optional "condition_entity" .string
    <*> .optional "condition_operator" .string
    <*> .optional "condition_state" .string
    <*> .withDefault "condition_min" bound none
    <*> .withDefault "condition_max" bound none

def decoder : Decoder Condition := record.closed "struct VisibilityCondition"

def fieldIf {α : Type} (name : String) (encode : α → Json) : Option α → List (String × Json)
  | none => []
  | some a => [(name, encode a)]

/-- The fields that are set. -/
def toFields (c : Condition) : List (String × Json) :=
  fieldIf "condition_entity" .string c.entityId ++ fieldIf "condition_operator" .string c.operator ++
    fieldIf "condition_state" .string c.state ++ fieldIf "condition_min" .ofReal c.lowest ++
    fieldIf "condition_max" .ofReal c.highest

end Condition

end Dashboard
