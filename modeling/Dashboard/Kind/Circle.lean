import Dashboard.Kind.Shape
/-!
# Circle widgets

A circle is the largest one around the center of the box of its widget.
-/

namespace Dashboard.Kind.Circle

structure Props where
  fill : Bool := false
  borderWidth : UInt32 := 1
  color : String := "theme_auto"
  bgColor : String := ""
  borderColor : String := ""
  opacity : UInt8 := 255
deriving DecidableEq, Repr

def Props.paint (p : Props) : Shape.Paint := ⟨p.fill, p.color, p.bgColor, p.borderColor, p.opacity⟩

def schema : Schema Props :=
  let d : Props := {}
  { default := d
    fields := fun p =>
      [("fill", .bool p.fill), ("border_width", count p.borderWidth), ("color", .string p.color),
        ("bg_color", .string p.bgColor), ("border_color", .string p.borderColor),
        ("opa", byte p.opacity)]
    record := Props.mk <$> flagField "fill" d.fill <*> countField "border_width" d.borderWidth
      <*> stringField "color" d.color <*> stringField "bg_color" d.bgColor
      <*> stringField "border_color" d.borderColor <*> byteField "opa" d.opacity }

def aliases : Aliases := [("border_width", "border")]

def hint (dark : Bool) (w : Widget) : Except ExportError Hint := do
  let p ← schema.readForExport w
  return p.paint.hint dark

def centerArguments (r : Rect) : List String := [pixelText r.center.1, pixelText r.center.2]

def block (p : Props) (w : Widget) (fill : Option String) (outline : String) : List String :=
  let r := w.rect
  let radius := pixelText r.innerRadius
  let b := Block.start w (schema.bag p) aliases
  let b := match fill with
    | some color => b.line (call "filled_circle" (centerArguments r ++ [radius, color]))
    | none => b
  (Shape.outline b p.borderWidth (call "circle" (centerArguments r ++ [radius, outline]))
    (call "circle" (centerArguments r ++ [radius ++ " - i", outline]))).finish

def procedural (s : Setting) (w : Widget) : Emission (List String) := do
  let p ← Emission.ofExcept (schema.readForExport w)
  let (fill, outline) ← p.paint.register s
  return block p w fill outline

/-- Twice the radius; the product wraps around at 32 bits. -/
def diameter (w : Widget) : Pixel := w.rect.innerRadius * 2

def retained (s : Setting) (_ : Resources) (w : Widget) : Except ExportError (List RetainedNode) := do
  let p ← schema.readForExport w
  let (color, opacity) := p.paint.background s
  return [(RetainedNode.ofWidget "obj" w).putPixel "width" (diameter w)
    |>.putPixel "height" (diameter w)
    |>.putText "radius" "LV_RADIUS_CIRCLE"
    |>.putTextIf "bg_color" color
    |>.putText "bg_opa" opacity
    |>.putCount "border_width" p.borderWidth
    |>.putText "border_color" (s.drawnGuiColor p.paint.outlineColor)]

def declarative (s : Setting) (_ : Resources) (_ : Flavor) (w : Widget) :
    Except ExportError (List Instruction) := do
  let p ← schema.readForExport w
  let r := w.rect
  return [.circle {
    x := r.center.1
    y := r.center.2
    radius := r.innerRadius
    fill := p.paint.literalFill s
    outline := s.drawnColor p.paint.outlineColor
    width := max p.borderWidth 1 }]

def kind : WidgetKind where
  descriptor :=
    { id := "shape_circle", name := "Circle", category := "Shapes", targets := Target.all
      capabilities := [.renderHint, .exportProcedural, .exportRetained, .exportDeclarative]
      defaults := schema.defaults }
  aliases := aliases
  typed w := (schema.read w).map schema.bag
  hint := hint
  procedural := procedural
  retained := retained
  declarative := declarative

end Dashboard.Kind.Circle
