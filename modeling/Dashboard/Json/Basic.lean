import Dashboard.Table
import Dashboard.Number.Format
/-!
# JSON values

Whole numbers are kept apart from floating point numbers, so that `1` and `1.0` differ. The fields
of an object are in the order in which they were built; a property bag keeps them in key order.
-/

namespace Dashboard

open Number

inductive Numeral where
  | whole (value : Int)
  | real (value : Binary64)
deriving DecidableEq

inductive Json where
  | null
  | bool (value : Bool)
  | number (value : Numeral)
  | string (value : String)
  | array (items : List Json)
  | object (fields : List (String × Json))
deriving Inhabited

/-- Named values in key order. -/
abbrev Bag := Table Json

namespace Numeral

def toBinary64 : Numeral → Binary64
  | .whole i => .ofInt i
  | .real x => x

def text : Numeral → String
  | .whole i => intText i
  | .real x => x.documentText

end Numeral

namespace Json

def ofInt (i : Int) : Json := .number (.whole i)

def ofNat (n : Nat) : Json := .number (.whole n)

/-- A floating point number as a value. What is not finite has no numeral and becomes null. -/
def ofReal (x : Binary64) : Json := if x.isFinite then .number (.real x) else .null

def ofOption {α : Type} (encode : α → Json) : Option α → Json
  | none => .null
  | some a => encode a

def ofStrings (ss : List String) : Json := .array (ss.map .string)

def isNull : Json → Bool
  | .null => true
  | _ => false

def isObject : Json → Bool
  | .object _ => true
  | _ => false

def string? : Json → Option String
  | .string s => some s
  | _ => none

def field? (name : String) : Json → Option Json
  | .object fs => fs.lookup name
  | _ => none

end Json

namespace Bag

/-- The bag `base` with every value of `changes` that is not null put over it. -/
def overlay (base changes : Bag) : Bag :=
  changes.foldl (fun b e => if e.2.isNull then b else b.put e.1 e.2) base

end Bag

end Dashboard
