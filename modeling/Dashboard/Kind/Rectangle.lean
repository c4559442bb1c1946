import Dashboard.Kind.Shape
/-!
# Rectangle widgets
-/

namespace Dashboard.Kind.Rectangle

structure Props where
  fill : Bool := false
  borderWidth : UInt32 := 1
  color : String := "theme_auto"
  bgColor : String := ""
  borderColor : String := ""
  radius : UInt32 := 0
  opacity : UInt8 := 255
deriving DecidableEq, Repr

def Props.paint (p : Props) : Shape.Paint := ⟨p.fill, p.color, p.bgColor, p.borderColor, p.opacity⟩

def schema : Schema Props :=
  let d : Props := {}
  { default := d
    fields := fun p =>
      [("fill", .bool p.fill), ("border_width", count p.borderWidth), ("color", .string p.color),
        ("bg_color", .string p.bgColor), ("border_color", .string p.borderColor),
        ("radius", count p.radius), ("opa", byte p.opacity)]
    record := Props.mk <$> flagField "fill" d.fill <*> countField "border_width" d.borderWidth
      <*> stringField "color" d.color <*> stringField "bg_color" d.bgColor
      <*> stringField "border_color" d.borderColor <*> countField "radius" d.radius
      <*> byteField "opa" d.opacity }

def aliases : Aliases := [("border_width", "border")]

def hint (dark : Bool) (w : Widget) : Except ExportError Hint := do
  let p ← schema.readForExport w
  return p.paint.hint dark

def boxArguments (r : Rect) : List String :=
  [pixelText r.x, pixelText r.y, pixelText r.width, pixelText r.height]

def nestedArguments (r : Rect) : List String :=
  [pixelText r.x ++ " + i", pixelText r.y ++ " + i", pixelText r.width ++ " - 2 * i",
    pixelText r.height ++ " - 2 * i"]

def block (p : Props) (w : Widget) (fill : Option String) (outline : String) : List String :=
  let r := w.rect
  let b := Block.start w (schema.bag p) aliases
  let b := match fill with
    | some color => b.line (call "filled_rectangle" (boxArguments r ++ [color]))
    | none => b
  (Shape.outline b p.borderWidth (call "rectangle" (boxArguments r ++ [outline]))
    (call "rectangle" (nestedArguments r ++ [outline]))).finish

def procedural (s : Setting) (w : Widget) : Emission (List String) := do
  let p ← Emission.ofExcept (schema.readForExport w)
  let (fill, outline) ← p.paint.register s
  return block p w fill outline

def retained (s : Setting) (_ : Resources) (w : Widget) : Except ExportError (List RetainedNode) := do
  let p ← schema.readForExport w
  let (color, opacity) := p.paint.background s
  return [(RetainedNode.ofWidget "obj" w).putTextIf "bg_color" color
    |>.putText "bg_opa" opacity
    |>.putCount "border_width" p.borderWidth
    |>.putText "border_color" (s.drawnGuiColor p.paint.outlineColor)
    |>.putCount "radius" p.radius]

def declarative (s : Setting) (_ : Resources) (f : Flavor) (w : Widget) :
    Except ExportError (List Instruction) := do
  let p ← schema.readForExport w
  let r := w.rect
  return [.rectangle {
    edges := ⟨r.x, r.y, r.right, r.bottom⟩
    fill := p.paint.literalFill s
    outline := s.drawnColor p.paint.outlineColor
    width := p.borderWidth
    radius := if p.radius = 0 then none else some p.radius
    visible := if f = .openDisplay then some true else none }]

def kind : WidgetKind where
  descriptor :=
    { id := "shape_rect", name := "Rectangle", category := "Shapes", targets := Target.all
      capabilities := [.renderHint, .exportProcedural, .exportRetained, .exportDeclarative]
      defaults := schema.defaults }
  aliases := aliases
  typed w := (schema.read w).map schema.bag
  hint := hint
  procedural := procedural
  retained := retained
  declarative := declarative

end Dashboard.Kind.Rectangle
