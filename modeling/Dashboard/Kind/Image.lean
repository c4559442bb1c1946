import Dashboard.Kind.Basic
/-!
# Image widgets

An image is a node of the retained GUI. Its source must not be blank.
-/

namespace Dashboard.Kind.Image

open Dashboard.Text

structure Props where
  source : String := "symbol_image"
  rotation : Pixel := 0
  color : String := "black"
  pivotX : Pixel := 0
  pivotY : Pixel := 0
  scale : UInt32 := 256
deriving DecidableEq, Repr

def schema : Schema Props :=
  let d : Props := {}
  { default := d
    fields := fun p =>
      [("src", .string p.source), ("rotation", .ofInt p.rotation.toInt), ("color", .string p.color),
        ("pivot_x", .ofInt p.pivotX.toInt), ("pivot_y", .ofInt p.pivotY.toInt), ("scale", count p.scale)]
    record := Props.mk <$> stringField "src" d.source <*> pixelField "rotation" d.rotation
      <*> stringField "color" d.color <*> pixelField "pivot_x" d.pivotX
      <*> pixelField "pivot_y" d.pivotY <*> countField "scale" d.scale }

def hint (_ : Bool) (w : Widget) : Except ExportError Hint := do
  let p ← schema.readForExport w
  return { text := some ("Symbol: " ++ p.source), fontSize := some 12 }

def sourceOf (p : Props) (w : Widget) : Except ExportError String :=
  match nonBlank? p.source with
  | some source => .ok source
  | none => .error (.invalidValue w.id "src" "image source is empty")

def retained (s : Setting) (_ : Resources) (w : Widget) : Except ExportError (List RetainedNode) := do
  let p ← schema.readForExport w
  let source ← sourceOf p w
  return [(RetainedNode.ofWidget "image" w).putText "src" source
    |>.putPixel "angle" p.rotation
    |>.putPixel "pivot_x" p.pivotX
    |>.putPixel "pivot_y" p.pivotY
    |>.putCount "zoom" p.scale
    |>.putText "image_recolor" (s.drawnGuiColor p.color)
    |>.putText "image_recolor_opa" "cover"]

def kind : WidgetKind where
  descriptor :=
    { id := "lvgl_img", name := "Image (lv)", category := "LVGL", targets := [.retained]
      capabilities := [.renderHint, .exportRetained]
      defaults := schema.defaults }
  typed w := (schema.read w).map schema.bag
  hint := hint
  retained := retained

end Dashboard.Kind.Image
