import Dashboard.Text.CLiteral
import Dashboard.Entity
import Dashboard.Layout.Condition
/-!
# Visibility guards

A guard is the expression of the drawing code that decides whether a widget is drawn. It compares
the state of the entity with bounds, with on or off, with a text or with a number, according to the
operator and the domain of the entity. A condition that cannot be expressed has no guard.
-/

namespace Dashboard.Condition

open Dashboard.Text Dashboard.Number

def stateOf (entity : String) : String := "id(" ++ Entity.componentId entity ++ ").state"

def bounded (state comparison : String) (bound : Binary64) : String :=
  state ++ " " ++ comparison ++ " " ++ bound.plainText

def rangeGuard? (c : Condition) (state : String) : Option String :=
  match c.lowest, c.highest with
  | some l, some u => some (bounded state ">=" l ++ " && " ++ bounded state "<=" u)
  | some l, none => some (bounded state ">=" l)
  | none, some u => some (bounded state "<=" u)
  | none, none => none

def isEquality (op : String) : Bool := op == "==" || op == "!="

def isComparison (op : String) : Bool :=
  isEquality op || op == ">" || op == "<" || op == ">=" || op == "<="

def readOnOff? (state : String) : Option Bool :=
  let word := lower state
  if ["on", "true", "1"].contains word then some true
  else if ["off", "false", "0"].contains word then some false
  else none

def binaryGuard? (state op : String) (expected : Option String) : Option String :=
  if !isEquality op then none
  else (expected.bind readOnOff?).map fun on =>
    if on == (op == "==") then state else "!" ++ state

def textGuard? (state op : String) (expected : Option String) : Option String :=
  if !isEquality op then none
  else some (state ++ " " ++ op ++ " " ++ literal (expected.getD ""))

/-- The number to compare with: the state, or the bound on the side of the operator. -/
def comparedNumber? (c : Condition) (op : String) (expected : Option String) : Option Binary64 :=
  (expected.bind fun s => Binary64.read? s.toList).or
    (if op = ">" || op = ">=" then c.lowest
    else if op = "<" || op = "<=" then c.highest
    else none)

def operatorOf (c : Condition) : String := (c.operator.bind nonBlank?).getD "=="

def guardFor? (c : Condition) (entity : String) : Option String :=
  let state := stateOf entity
  let op := c.operatorOf
  let expected := c.state.map trim
  if op = "range" then c.rangeGuard? state
  else if !isComparison op then none
  else if startsWith "binary_sensor." entity then binaryGuard? state op expected
  else if Entity.isText entity then textGuard? state op expected
  else (c.comparedNumber? op expected).map (bounded state op)

def guard? (c : Condition) : Option String :=
  ((c.entity?).bind Entity.normalize?).bind c.guardFor?

end Dashboard.Condition
