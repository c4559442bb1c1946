import Dashboard.Kind.Basic
/-!
# Chart widgets

A chart shows the history of one entity. In the drawing code the history is kept by a graph
component of its own; the retained GUI draws a line, bars or points.
-/

namespace Dashboard.Kind.Chart

open Dashboard.Text

inductive Style where
  | line | bar | scatter
deriving DecidableEq, Repr

namespace Style

def name : Style → String
  | .line => "LINE"
  | .bar => "BAR"
  | .scatter => "SCATTER"

def ofName? (s : String) : Option Style :=
  let word := lower (trim s)
  if word = "line" then some .line
  else if word = "bar" then some .bar
  else if word = "scatter" then some .scatter
  else none

def unknownMessage (s : String) : String := "Unknown chart type: " ++ s

end Style

structure Props where
  style : String := "LINE"
  duration : String := "1h"
  color : String := "theme_auto"
  lineThickness : UInt32 := 2
  border : Bool := true
deriving DecidableEq, Repr

def schema : Schema Props :=
  let d : Props := {}
  { default := d
    fields := fun p =>
      [("type", .string p.style), ("duration", .string p.duration), ("color", .string p.color),
        ("line_thickness", count p.lineThickness), ("border", .bool p.border)]
    record := Props.mk <$> stringField "type" d.style <*> stringField "duration" d.duration
      <*> stringField "color" d.color <*> countField "line_thickness" d.lineThickness
      <*> flagField "border" d.border }

def styleOf (p : Props) (w : Widget) : Except ExportError Style :=
  match Style.ofName? p.style with
  | some s => .ok s
  | none => .error (.invalidValue w.id "type" (Style.unknownMessage p.style))

def entityOf (w : Widget) : Except ExportError EntityRead :=
  match entityRead? w with
  | some read => .ok read
  | none => .error (.missingEntity w.id)

def titleSize : UInt32 := 12

def titleFont : FontRequest := .make "Roboto" 400 titleSize false

def title? (w : Widget) : Option String := w.title.bind nonBlank?

def graphId (w : Widget) : String := "graph_" ++ Entity.componentId w.id

def graph (p : Props) (w : Widget) (read : EntityRead) : Graph where
  id := graphId w
  sensor := read.id
  duration := p.duration
  width := w.rect.width
  height := w.rect.height
  lineThickness := p.lineThickness

def hint (dark : Bool) (w : Widget) : Except ExportError Hint := do
  let p ← schema.readForExport w
  return {
    color := Color.resolve? p.color .foreground dark
    fontSize := (title? w).map fun _ => titleSize
    text := title? w }

def addTitleFont (w : Widget) : Emission (Option String) :=
  if (title? w).isSome then some <$> Emission.register (Resources.addFont titleFont) else pure none

def collect (s : Setting) (w : Widget) : Emission Unit := do
  let p ← Emission.ofExcept (schema.readForExport w)
  let _ ← Emission.ofExcept (styleOf p w)
  let read ← Emission.ofExcept (entityOf w)
  let _ ← addTitleFont w
  if s.target = .procedural then
    let _ ← Emission.register (Resources.addGraph (graph p w read))

/-- A title stands a few pixels inside the box; the sums wrap around at 32 bits. -/
def titleCall (r : Rect) (font color title : String) : String :=
  call "print" [pixelText (r.x + 4), pixelText (r.y + 2), componentRef font, color,
    "TextAlign::TOP_LEFT", literal title]

def frameCall (r : Rect) (color : String) : String :=
  call "rectangle" [pixelText r.x, pixelText r.y, pixelText r.width, pixelText r.height, color]

def graphCall (w : Widget) (color : String) : String :=
  call "graph" [pixelText w.rect.x, pixelText w.rect.y, componentRef (graphId w), color]

def block (p : Props) (w : Widget) (color : String) (font : Option String) : List String :=
  let b := Block.start w (schema.bag p) []
  let b := if p.border then b.line (frameCall w.rect color) else b
  let b := match title? w, font with
    | some title, some font => b.line (titleCall w.rect font color title)
    | _, _ => b
  (b.line (graphCall w color)).finish

def procedural (s : Setting) (w : Widget) : Emission (List String) := do
  let p ← Emission.ofExcept (schema.readForExport w)
  let _ ← Emission.ofExcept (entityOf w)
  let color ← Emission.register (Resources.colorConstant s p.color .foreground)
  let font ← addTitleFont w
  return block p w color font

def series (color : String) (p : Props) : Json :=
  .array [.object [("color", .string color), ("width", count p.lineThickness)]]

def retained (s : Setting) (_ : Resources) (w : Widget) : Except ExportError (List RetainedNode) := do
  let p ← schema.readForExport w
  let style ← styleOf p w
  let _ ← entityOf w
  let color := s.drawnGuiColor p.color
  return [(RetainedNode.ofWidget "chart" w).putText "type" style.name
    |>.putCount "border_width" (if p.border then 1 else 0)
    |>.putText "border_color" color
    |>.put "series" (series color p)]

def kind : WidgetKind where
  descriptor :=
    { id := "chart", name := "Chart", category := "Sensors", targets := [.procedural, .retained]
      capabilities := [.renderHint, .collectResources, .exportProcedural, .exportRetained,
        .resolveEntities]
      defaults := schema.defaults }
  typed w := (schema.read w).map schema.bag
  hint := hint
  collect := collect
  procedural := procedural
  retained := retained
  resolve := resolveWidgets

end Dashboard.Kind.Chart
