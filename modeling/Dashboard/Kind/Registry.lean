import Dashboard.Kind.Chart
import Dashboard.Kind.Circle
import Dashboard.Kind.Clock
import Dashboard.Kind.Ellipse
import Dashboard.Kind.Image
import Dashboard.Kind.Label
import Dashboard.Kind.Line
import Dashboard.Kind.Rectangle
import Dashboard.Kind.TextBlock
/-!
# Registries of kinds

A registry finds the kind of a widget by its id. Registering a kind replaces a kind of the same id.
-/

namespace Dashboard

abbrev Registry := Table WidgetKind

namespace Kind

/-- The kinds that the library knows, in the order of their registration. -/
def builtin : List WidgetKind :=
  [Clock.kind, TextBlock.kind, Rectangle.kind, Circle.kind, Line.kind, Chart.kind, Label.kind,
    Image.kind, Ellipse.kind]

def builtin? (id : String) : Option WidgetKind := builtin.find? fun k => k.id == id

end Kind

namespace Registry

def register (k : WidgetKind) (r : Registry) : Registry := Table.put k.id k r

def ofKinds (ks : List WidgetKind) : Registry := ks.foldl (fun r k => register k r) []

def builtin : Registry := ofKinds Kind.builtin

def kind? (r : Registry) (id : String) : Option WidgetKind := Table.find? r id

def descriptors (r : Registry) : List Descriptor := (Table.values r).map WidgetKind.descriptor

def toJson (r : Registry) : Json := .array (r.descriptors.map Descriptor.toJson)

/-- One line that lists the ids for whoever inspects a registry. -/
def summary (r : Registry) : String :=
  "PluginRegistry \x7b plugins: [" ++ Text.joined ", " ((Table.keys r).map Text.quoted) ++ "] \x7d"

end Registry

end Dashboard
