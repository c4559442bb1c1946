import Dashboard.Entity
import Dashboard.Options
import Dashboard.Target
import Dashboard.Style.Color
import Dashboard.Style.Font
import Dashboard.Table
import Dashboard.Geometry.Pixel
/-!
# Resources of a document

While a layout is compiled, widgets register what they share: fonts, color constants, entities with
the actions that run when they change, and graph components. Each registry is a table, so that the
document lists its entries by name whatever the order of registration. Registering is a pure step
from resources to resources; going back to an earlier state is keeping the earlier value.
-/

namespace Dashboard

open Text

/-- What is fixed for one compile. -/
structure Setting where
  target : Target
  dark : Bool
  options : Options := {}

structure Graph where
  id : String
  sensor : String
  duration : String
  width : Pixel
  height : Pixel
  lineThickness : UInt32
deriving DecidableEq, Repr

namespace Graph

def toJson (g : Graph) : Json :=
  .object [("id", .string g.id), ("sensor", .string g.sensor), ("duration", .string g.duration),
    ("width", .ofInt g.width.toInt), ("height", .ofInt g.height.toInt),
    ("line_thickness", .ofNat g.lineThickness.toNat)]

end Graph

abbrev Fonts := Table FontRequest

abbrev Colors := Table Rgb

/-- For each entity its actions, in order and without repetition. -/
abbrev Actions := Table (Table Unit)

structure Triggers where
  numeric : Actions := []
  text : Actions := []
deriving DecidableEq, Repr

abbrev Graphs := Table Graph

structure Resources where
  fonts : Fonts := []
  colors : Colors := []
  triggers : Triggers := {}
  graphs : Graphs := []

namespace Fonts

/-- Enters a font under its id and answers with the id. -/
def add (f : FontRequest) (t : Fonts) : String × Fonts := (f.id, Table.putNew f.id f t)

end Fonts

namespace Colors

def constantName (color : String) : String :=
  "color_" ++ String.ofList ((color.toList.filter Char.isAlphanum).map Char.toLower)

/-- The constant for a color. A color that has no known triple is drawn black. -/
def constant (color : String) (t : Colors) : String × Colors :=
  match Color.rgb? color with
  | some rgb => (constantName color, Table.putNew (constantName color) rgb t)
  | none => (constantName "black", Table.putNew (constantName "black") ⟨0, 0, 0⟩ t)

end Colors

namespace Triggers

def change (entity : String) (f : Table Unit → Table Unit) (t : Triggers) : Triggers :=
  match Entity.normalize? entity with
  | none => t
  | some e =>
    if Entity.isText e then { t with text := t.text.put e (f ((t.text.find? e).getD [])) }
    else { t with numeric := t.numeric.put e (f ((t.numeric.find? e).getD [])) }

/-- Lets `action` run whenever the entity changes. A blank entity is ignored. -/
def register (entity action : String) (t : Triggers) : Triggers :=
  t.change entity fun actions => actions.put action ()

/-- Declares an entity without an action. -/
def declare (entity : String) (t : Triggers) : Triggers := t.change entity id

end Triggers

namespace Graphs

def add (g : Graph) (t : Graphs) : String × Graphs := (g.id, Table.put g.id g t)

end Graphs

namespace Setting

def color? (s : Setting) (value : String) (role : ColorRole) : Option String :=
  Color.resolve? value role s.dark

def upperHex (n : UInt8) : List Char :=
  (Nat.digitChar (n.toNat / 16)).toUpper :: [(Nat.digitChar (n.toNat % 16)).toUpper]

def guiText (color : String) : String :=
  match Color.rgb? color with
  | some c => String.ofList ('0' :: 'x' :: upperHex c.red ++ upperHex c.green ++ upperHex c.blue)
  | none => color

/-- A color as the retained GUI writes it. One without a known triple stays as it is. -/
def guiColor? (s : Setting) (value : String) (role : ColorRole) : Option String :=
  (s.color? value role).map guiText

/-- A color that is drawn whatever it resolves to, as a literal. -/
def drawnColor (s : Setting) (value : String) : String :=
  (s.color? value .outline).getD (Color.themeDefault s.dark)

def drawnGuiColor (s : Setting) (value : String) : String :=
  (s.guiColor? value .outline).getD (Color.themeDefault s.dark)

/-- The action that draws a widget again. Remote renderers have none. -/
def refreshAction? (s : Setting) (widgetId : String) : Option String :=
  match s.target with
  | .procedural => some ("component.update: " ++ s.options.displayId)
  | .retained => some ("lvgl.widget.refresh: " ++ widgetId)
  | .declarative _ => none

end Setting

namespace Resources

def addFont (f : FontRequest) (r : Resources) : String × Resources :=
  let (id, fonts) := Fonts.add f r.fonts
  (id, { r with fonts })

def addColor (color : String) (r : Resources) : String × Resources :=
  let (name, colors) := Colors.constant color r.colors
  (name, { r with colors })

def addGraph (g : Graph) (r : Resources) : String × Resources :=
  let (id, graphs) := Graphs.add g r.graphs
  (id, { r with graphs })

/-- The constant of a color property, if the property stands for a color at all. -/
def colorConstant? (s : Setting) (value : String) (role : ColorRole) (r : Resources) :
    Option String × Resources :=
  match s.color? value role with
  | none => (none, r)
  | some c =>
    let (name, r) := r.addColor c
    (some name, r)

/-- The constant of a color property; the color of the theme where it stands for none. -/
def colorConstant (s : Setting) (value : String) (role : ColorRole) (r : Resources) :
    String × Resources :=
  match colorConstant? s value role r with
  | (some name, r) => (name, r)
  | (none, r) => r.addColor (Color.themeDefault s.dark)

def registerRefresh (s : Setting) (entity widgetId : String) (r : Resources) : Resources :=
  match s.refreshAction? widgetId with
  | none => r
  | some action => { r with triggers := r.triggers.register entity action }

end Resources

end Dashboard
