import Dashboard.Kind.Basic
/-!
# Text widgets

A text widget shows a fixed text, or a text followed by the state of an entity.
-/

namespace Dashboard.Kind.TextBlock

open Dashboard.Text

structure Props where
  text : String := "Text"
  fontSize : UInt32 := 20
  fontFamily : String := "Roboto"
  fontWeight : UInt32 := 400
  italic : Bool := false
  color : String := "theme_auto"
  textAlign : String := "TOP_LEFT"
  precision : UInt8 := 1
  opacity : UInt8 := 255
deriving DecidableEq, Repr

def Props.font (p : Props) : FontRequest := .make p.fontFamily p.fontWeight p.fontSize p.italic

def Props.alignment (p : Props) : Alignment := .ofKeyword p.textAlign

def schema : Schema Props :=
  let d : Props := {}
  { default := d
    fields := fun p =>
      [("text", .string p.text), ("font_size", count p.fontSize), ("font_family", .string p.fontFamily),
        ("font_weight", count p.fontWeight), ("italic", .bool p.italic), ("color", .string p.color),
        ("text_align", .string p.textAlign), ("precision", byte p.precision), ("opa", byte p.opacity)]
    record := Props.mk <$> stringField "text" d.text <*> countField "font_size" d.fontSize
      <*> stringField "font_family" d.fontFamily <*> countField "font_weight" d.fontWeight
      <*> flagField "italic" d.italic <*> stringField "color" d.color
      <*> stringField "text_align" d.textAlign <*> byteField "precision" d.precision
      <*> byteField "opa" d.opacity }

def aliases : Aliases := [("text_align", "align"), ("font_size", "size")]

def hint (dark : Bool) (w : Widget) : Except ExportError Hint := do
  let p ← schema.readForExport w
  let text := match w.entity? with
    | some entity => p.text ++ "\x7b" ++ entity ++ "\x7d"
    | none => p.text
  return {
    flex := some p.alignment.flex
    color := Color.resolve? p.color .foreground dark
    fontSize := some p.fontSize
    text := some text }

def collect (_ : Setting) (w : Widget) : Emission Unit := do
  let p ← Emission.ofExcept (schema.readForExport w)
  let _ ← Emission.register (Resources.addFont p.font)

def doublePercent (s : String) : String :=
  String.ofList (s.toList.flatMap fun c => if c = '%' then ['%', '%'] else [c])

/-- The format of a drawing call that shows a text before a state. -/
def printFormat (text : String) (read : EntityRead) (precision : UInt8) : String :=
  doublePercent text ++ stateFormat read precision

def statement (p : Props) (w : Widget) (font color : String) : String :=
  let point := p.alignment.anchorPoint w.rect
  let place := [pixelText point.1, pixelText point.2, componentRef font, color, p.alignment.textAlign]
  match entityRead? w with
  | some read =>
    call "printf" (place ++ [literal (printFormat p.text read p.precision), stateArgument read])
  | none => call "print" (place ++ [literal p.text])

def procedural (s : Setting) (w : Widget) : Emission (List String) := do
  let p ← Emission.ofExcept (schema.readForExport w)
  let font ← Emission.register (Resources.addFont p.font)
  let color ← Emission.register (Resources.colorConstant s p.color .foreground)
  return ((Block.start w (schema.bag p) aliases).line (statement p w font color)).finish

def shownText (p : Props) (w : Widget) : Json :=
  match entityRead? w with
  | some read => lambdaValue [stateLambda read p.precision]
  | none => .string p.text

def retained (s : Setting) (_ : Resources) (w : Widget) : Except ExportError (List RetainedNode) := do
  let p ← schema.readForExport w
  return [(RetainedNode.ofWidget "label" w).put "text" (shownText p w)
    |>.putText "text_font" p.font.id
    |>.putText "text_color" (s.drawnGuiColor p.color)
    |>.putText "text_align" p.alignment.guiTextAlign
    |>.putText "opa" (opacityText p.opacity)]

def shownTemplate (p : Props) (w : Widget) : String :=
  match entityRead? w with
  | some read => p.text ++ stateTemplate read
  | none => p.text

/-- Whether a renderer is told to wrap a text: one of the two wraps within the width of the box. -/
def wraps (f : Flavor) (r : Rect) : Bool := f == .oepl && 0 < r.width.toInt

def declarative (s : Setting) (_ : Resources) (f : Flavor) (w : Widget) :
    Except ExportError (List Instruction) := do
  let p ← schema.readForExport w
  let r := w.rect
  let point := p.alignment.anchorPoint r
  return [.text {
    value := shownTemplate p w
    x := point.1
    y := point.2
    size := p.font.size
    color := s.drawnColor p.color
    anchor := p.alignment.anchorCode
    font := p.font.file
    align := if wraps f r then some (lower p.alignment.guiTextAlign) else none
    maxWidth := if wraps f r then some r.width else none }]

def kind : WidgetKind where
  descriptor :=
    { id := "text", name := "Text", category := "Core", targets := Target.all
      capabilities := [.renderHint, .collectResources, .exportProcedural, .exportRetained,
        .exportDeclarative, .resolveEntities]
      defaults := schema.defaults }
  aliases := aliases
  typed w := (schema.read w).map schema.bag
  hint := hint
  collect := collect
  procedural := procedural
  retained := retained
  declarative := declarative
  resolve := resolveWidgets

end Dashboard.Kind.TextBlock
