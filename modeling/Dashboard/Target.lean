import Dashboard.Text.Blank
import Dashboard.Text.Ascii
import Dashboard.Json.Decode
/-!
# Targets

A layout compiles to one of four documents: drawing code in a firmware lambda, a retained widget
tree, or a draw list for one of two remote renderers.
-/

namespace Dashboard

inductive Flavor where
  | oepl | openDisplay
deriving DecidableEq, Repr

inductive Target where
  | procedural | retained
  | declarative (flavor : Flavor)
deriving DecidableEq, Repr

namespace Flavor

def name : Flavor → String
  | .oepl => "oepl"
  | .openDisplay => "opendisplay"

def target (f : Flavor) : Target := .declarative f

def decoder : Json.Decoder Flavor := .choice ([oepl, openDisplay].map fun f => (f.name, f))

end Flavor

namespace Target

def all : List Target := [.procedural, .retained, .declarative .oepl, .declarative .openDisplay]

def name : Target → String
  | .procedural => "direct"
  | .retained => "lvgl"
  | .declarative f => f.name

def flavor? : Target → Option Flavor
  | .declarative f => some f
  | _ => none

def ofName? (s : String) : Option Target :=
  let name := Text.lower (Text.trim s)
  if name = "direct" || name = "procedural" then some .procedural
  else if name = "lvgl" || name = "retained" then some .retained
  else if name = "oepl" then some (.declarative .oepl)
  else if name = "opendisplay" || name = "odp" then some (.declarative .openDisplay)
  else none

/-- What is said about a text that names no target. -/
def unknownMessage (s : String) : String :=
  "Unknown target: " ++ s ++ " (expected direct, lvgl, oepl or opendisplay)"

end Target

end Dashboard
