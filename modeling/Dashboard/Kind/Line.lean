import Dashboard.Kind.Basic
/-!
# Line widgets

A line runs along the top or the left edge of the box of its widget, from end to end of it. Where
it is drawn by its center, the center lies half a stroke inside the box.
-/

namespace Dashboard.Kind.Line

inductive Orientation where
  | horizontal | vertical
deriving DecidableEq, Repr

namespace Orientation

def name : Orientation → String
  | .horizontal => "horizontal"
  | .vertical => "vertical"

def decoder : Json.Decoder Orientation := .choice ([horizontal, vertical].map fun o => (o.name, o))

end Orientation

structure Props where
  strokeWidth : UInt32 := 3
  color : String := "theme_auto"
  orientation : Orientation := .horizontal
deriving DecidableEq, Repr

def schema : Schema Props :=
  let d : Props := {}
  { default := d
    fields := fun p =>
      [("stroke_width", count p.strokeWidth), ("color", .string p.color),
        ("orientation", .string p.orientation.name)]
    record := Props.mk <$> countField "stroke_width" d.strokeWidth <*> stringField "color" d.color
      <*> .withDefault "orientation" Orientation.decoder d.orientation }

def aliases : Aliases := [("stroke_width", "stroke")]

def hint (dark : Bool) (w : Widget) : Except ExportError Hint := do
  let p ← schema.readForExport w
  return { color := Color.resolve? p.color .foreground dark }

def stroke (p : Props) : UInt32 := max p.strokeWidth 1

def statement (p : Props) (r : Rect) (color : String) : String :=
  let x := pixelText r.x
  let y := pixelText r.y
  let width := countText (stroke p)
  match p.orientation, stroke p == 1 with
  | .horizontal, true => call "line" [x, y, pixelText r.right, y, color]
  | .vertical, true => call "line" [x, y, x, pixelText r.bottom, color]
  | .horizontal, false => call "filled_rectangle" [x, y, pixelText r.width, width, color]
  | .vertical, false => call "filled_rectangle" [x, y, width, pixelText r.height, color]

def procedural (s : Setting) (w : Widget) : Emission (List String) := do
  let p ← Emission.ofExcept (schema.readForExport w)
  let color ← Emission.register (Resources.colorConstant s p.color .foreground)
  return ((Block.start w (schema.bag p) aliases).line (statement p w.rect color)).finish

def farEnd (p : Props) (r : Rect) : String :=
  match p.orientation with
  | .horizontal => pixelText r.width ++ ", 0"
  | .vertical => "0, " ++ pixelText r.height

def retained (s : Setting) (_ : Resources) (w : Widget) : Except ExportError (List RetainedNode) := do
  let p ← schema.readForExport w
  let r := w.rect
  return [(RetainedNode.mk "line" []).putText "id" w.id
    |>.putPixel "x" r.x
    |>.putPixel "y" r.y
    |>.put "points" (.ofStrings ["0, 0", farEnd p r])
    |>.putCount "line_width" p.strokeWidth
    |>.putText "line_color" (s.drawnGuiColor p.color)]

/-- The ends of the center of the stroke; the shift into the box wraps around at 32 bits. -/
def ends (p : Props) (r : Rect) : Edges :=
  let half : Pixel := Int32.ofNat (p.strokeWidth.toNat / 2)
  match p.orientation with
  | .horizontal => ⟨r.x, r.y + half, r.right, r.y + half⟩
  | .vertical => ⟨r.x + half, r.y, r.x + half, r.bottom⟩

def declarative (s : Setting) (_ : Resources) (_ : Flavor) (w : Widget) :
    Except ExportError (List Instruction) := do
  let p ← schema.readForExport w
  return [.line { edges := ends p w.rect, fill := s.drawnColor p.color, width := stroke p }]

def kind : WidgetKind where
  descriptor :=
    { id := "line", name := "Line", category := "Shapes", targets := Target.all
      capabilities := [.renderHint, .exportProcedural, .exportRetained, .exportDeclarative]
      defaults := schema.defaults }
  aliases := aliases
  typed w := (schema.read w).map schema.bag
  hint := hint
  procedural := procedural
  retained := retained
  declarative := declarative

end Dashboard.Kind.Line
