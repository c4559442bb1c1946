import Dashboard.Geometry.Stack
import Dashboard.Kind.TextBlock
import Dashboard.Style.TimeFormat
/-!
# Clock widgets

A clock shows the time or a date on one line, or the time above a short date. The two lines are
placed as one block, and each of them is anchored at its top.
-/

namespace Dashboard.Kind.Clock

open Dashboard.Text

structure Props where
  format : TimeFormat := .timeDate
  timeFontSize : UInt32 := 28
  dateFontSize : UInt32 := 16
  color : String := "black"
  italic : Bool := false
  fontFamily : String := "Roboto"
  textAlign : String := "CENTER"
  opacity : UInt8 := 255
deriving DecidableEq, Repr

namespace Props

def timeFont (p : Props) : FontRequest := .make p.fontFamily 700 p.timeFontSize p.italic

def dateFont (p : Props) : FontRequest := .make p.fontFamily 400 p.dateFontSize p.italic

/-- The font of a format with one line. -/
def singleFont (p : Props) : FontRequest := if p.format.isDate then p.dateFont else p.timeFont

def fonts (p : Props) : List FontRequest :=
  if p.format = .timeDate then [p.timeFont, p.dateFont] else [p.singleFont]

def alignment (p : Props) : Alignment := .ofKeyword p.textAlign

end Props

def schema : Schema Props :=
  let d : Props := {}
  { default := d
    fields := fun p =>
      [("format", .string p.format.name), ("time_font_size", count p.timeFontSize),
        ("date_font_size", count p.dateFontSize), ("color", .string p.color), ("italic", .bool p.italic),
        ("font_family", .string p.fontFamily), ("text_align", .string p.textAlign),
        ("opa", byte p.opacity)]
    record := Props.mk <$> .withDefault "format" TimeFormat.decoder d.format
      <*> countField "time_font_size" d.timeFontSize <*> countField "date_font_size" d.dateFontSize
      <*> stringField "color" d.color <*> flagField "italic" d.italic
      <*> stringField "font_family" d.fontFamily <*> stringField "text_align" d.textAlign
      <*> byteField "opa" d.opacity }

def aliases : Aliases :=
  [("format", "fmt"), ("time_font_size", "time_font"), ("date_font_size", "date_font"),
    ("text_align", "align")]

def hint (dark : Bool) (w : Widget) : Except ExportError Hint := do
  let p ← schema.readForExport w
  return {
    flex := some p.alignment.flex
    color := Color.resolve? p.color .foreground dark
    fontSize := some p.timeFontSize
    text := some p.format.primaryPattern }

def addFonts (fonts : List FontRequest) (r : Resources) : Resources :=
  fonts.foldl (fun r f => (r.addFont f).2) r

def collect (_ : Setting) (w : Widget) : Emission Unit := do
  let p ← Emission.ofExcept (schema.readForExport w)
  modify (addFonts p.fonts)

/-- A font size as a height; sizes past the pixel range count as its end. -/
def heightOf (size : UInt32) : Pixel := Pixel.clamp size.toNat

def stackIn (r : Rect) (p : Props) (timeSize dateSize : UInt32) : StackedLines :=
  .place r p.alignment.vertical (heightOf timeSize) (heightOf dateSize)

def timeCall (x y : Pixel) (font color align pattern : String) : String :=
  call "strftime" [pixelText x, pixelText y, componentRef font, color, align, literal pattern, "now"]

def stackedCalls (p : Props) (r : Rect) (second timeFont dateFont color : String) : List String :=
  let stack := stackIn r p p.timeFontSize p.dateFontSize
  let x := (p.alignment.anchorPoint r).1
  let top := (p.alignment.withVertical .top).textAlign
  [timeCall x stack.firstY timeFont color top p.format.primaryPattern,
    timeCall x stack.secondY dateFont color top second]

def singleCall (p : Props) (r : Rect) (font color : String) : String :=
  let point := p.alignment.anchorPoint r
  timeCall point.1 point.2 font color p.alignment.textAlign p.format.primaryPattern

def block (s : Setting) (w : Widget) (p : Props) (calls : List String) : List String :=
  let b := (Block.start w (schema.bag p) aliases).openScope
  let b := b.line ("auto now = " ++ componentRef s.options.timeId ++ ".now();")
  ((calls.foldl Block.line b).closeScope).finish

def procedural (s : Setting) (w : Widget) : Emission (List String) := do
  let p ← Emission.ofExcept (schema.readForExport w)
  let color ← Emission.register (Resources.colorConstant s p.color .foreground)
  match p.format.secondaryPattern? with
  | some second =>
    let timeFont ← Emission.register (Resources.addFont p.timeFont)
    let dateFont ← Emission.register (Resources.addFont p.dateFont)
    return block s w p (stackedCalls p w.rect second timeFont dateFont color)
  | none =>
    let font ← Emission.register (Resources.addFont p.singleFont)
    return block s w p [singleCall p w.rect font color]

/-- The pattern of all lines. The break between them is an escape of the drawing code. -/
def wholePattern (f : TimeFormat) : String :=
  match f.secondaryPattern? with
  | some second => f.primaryPattern ++ "\\n" ++ second
  | none => f.primaryPattern

def retained (s : Setting) (_ : Resources) (w : Widget) : Except ExportError (List RetainedNode) := do
  let p ← schema.readForExport w
  let font := if p.format = .timeDate then p.timeFont else p.singleFont
  let text := lambdaValue ["auto now = " ++ componentRef s.options.timeId ++ ".now();",
    "return now.strftime(\"" ++ wholePattern p.format ++ "\").c_str();"]
  return [(RetainedNode.ofWidget "label" w).put "text" text
    |>.putText "text_font" font.id
    |>.putText "text_color" (s.drawnGuiColor p.color)
    |>.putText "text_align" p.alignment.guiTextAlign
    |>.putText "opa" (opacityText p.opacity)]

def lineSpacing : Pixel := 5

def draw (s : Setting) (f : Flavor) (p : Props) (r : Rect) (pattern : String) (x y : Pixel)
    (anchor : Alignment) (font : FontRequest) : Instruction :=
  let wrap := TextBlock.wraps f r
  .text {
    value := nowTemplate pattern
    x := x
    y := y
    size := font.size
    color := s.drawnColor p.color
    anchor := anchor.anchorCode
    font := font.file
    align := if wrap then some (lower anchor.guiTextAlign) else none
    maxWidth := if wrap then some r.width else none
    spacing := if wrap then some lineSpacing else none }

def declarative (s : Setting) (_ : Resources) (f : Flavor) (w : Widget) :
    Except ExportError (List Instruction) := do
  let p ← schema.readForExport w
  let r := w.rect
  let point := p.alignment.anchorPoint r
  match p.format.secondaryPattern? with
  | none =>
    return [draw s f p r p.format.primaryPattern point.1 point.2 p.alignment p.singleFont]
  | some second =>
    let stack := stackIn r p p.timeFont.size p.dateFont.size
    let top := p.alignment.withVertical .top
    return [draw s f p r p.format.primaryPattern point.1 stack.firstY top p.timeFont,
      draw s f p r second point.1 stack.secondY top p.dateFont]

def kind : WidgetKind where
  descriptor :=
    { id := "datetime", name := "Date & Time", category := "Core", targets := Target.all
      capabilities := [.renderHint, .collectResources, .exportProcedural, .exportRetained,
        .exportDeclarative]
      defaults := schema.defaults }
  aliases := aliases
  typed w := (schema.read w).map schema.bag
  hint := hint
  collect := collect
  procedural := procedural
  retained := retained
  declarative := declarative

end Dashboard.Kind.Clock
