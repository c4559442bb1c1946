import Dashboard.Kind.Basic
import Dashboard.Text.Quoted
/-!
# Label widgets

A label is a node of the retained GUI with a fixed text or with the state of an entity.
-/

namespace Dashboard.Kind.Label

open Dashboard.Text

structure Props where
  text : String := "Label"
  fontSize : UInt32 := 20
  fontFamily : String := "Roboto"
  color : String := "black"
  fontWeight : UInt32 := 400
  italic : Bool := false
  textAlign : String := "CENTER"
  bgColor : String := "transparent"
  opacity : UInt8 := 255
  borderWidth : UInt32 := 0
  borderColor : String := "black"
  borderRadius : UInt32 := 0
deriving DecidableEq, Repr

def Props.font (p : Props) : FontRequest := .make p.fontFamily p.fontWeight p.fontSize p.italic

def schema : Schema Props :=
  let d : Props := {}
  { default := d
    fields := fun p =>
      [("text", .string p.text), ("font_size", count p.fontSize), ("font_family", .string p.fontFamily),
        ("color", .string p.color), ("font_weight", count p.fontWeight), ("italic", .bool p.italic),
        ("text_align", .string p.textAlign), ("bg_color", .string p.bgColor), ("opa", byte p.opacity),
        ("border_width", count p.borderWidth), ("border_color", .string p.borderColor),
        ("border_radius", count p.borderRadius)]
    record := Props.mk <$> stringField "text" d.text <*> countField "font_size" d.fontSize
      <*> stringField "font_family" d.fontFamily <*> stringField "color" d.color
      <*> countField "font_weight" d.fontWeight <*> flagField "italic" d.italic
      <*> stringField "text_align" d.textAlign <*> stringField "bg_color" d.bgColor
      <*> byteField "opa" d.opacity <*> countField "border_width" d.borderWidth
      <*> stringField "border_color" d.borderColor <*> countField "border_radius" d.borderRadius }

def hint (dark : Bool) (w : Widget) : Except ExportError Hint := do
  let p ← schema.readForExport w
  return {
    flex := some ((Alignment.ofKeyword p.textAlign).withVertical .center).flex
    color := Color.resolve? p.color .foreground dark
    fill := Color.resolve? p.bgColor .fill dark
    fontSize := some p.fontSize
    text := some p.text }

def collect (_ : Setting) (w : Widget) : Emission Unit := do
  let p ← Emission.ofExcept (schema.readForExport w)
  let _ ← Emission.register (Resources.addFont p.font)

def shownText (p : Props) (w : Widget) : String :=
  match entityRead? w with
  | some read => "!lambda " ++ quoted (stateLambda read 1)
  | none => p.text

def retained (s : Setting) (_ : Resources) (w : Widget) : Except ExportError (List RetainedNode) := do
  let p ← schema.readForExport w
  return [(RetainedNode.ofWidget "label" w).putText "text" (shownText p w)
    |>.putText "text_font" p.font.id
    |>.putText "text_color" (s.drawnGuiColor p.color)
    |>.putText "text_align" (Alignment.ofKeyword p.textAlign).guiTextAlign
    |>.putTextIf "bg_color" (s.guiColor? p.bgColor .fill)
    |>.putText "opa" (opacityText p.opacity)
    |>.putCount "border_width" p.borderWidth
    |>.putText "border_color" (s.drawnGuiColor p.borderColor)
    |>.putText "border_side" (if p.borderWidth = 0 then "none" else "full")
    |>.putCount "radius" p.borderRadius]

def kind : WidgetKind where
  descriptor :=
    { id := "lvgl_label", name := "Label", category := "LVGL", targets := [.retained]
      capabilities := [.renderHint, .collectResources, .exportRetained, .resolveEntities]
      defaults := schema.defaults }
  typed w := (schema.read w).map schema.bag
  hint := hint
  collect := collect
  retained := retained
  resolve := resolveWidgets

end Dashboard.Kind.Label
