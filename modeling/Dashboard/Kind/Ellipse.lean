import Dashboard.Kind.Basic
/-!
# Ellipse widgets

An ellipse is drawn by the declarative renderers only. A fill that is missing, blank or transparent
leaves the interior empty.
-/

namespace Dashboard.Kind.Ellipse

open Dashboard.Text

structure Props where
  fill : Option String := none
  outline : String := "black"
  borderWidth : UInt32 := 1
deriving DecidableEq, Repr

def schema : Schema Props :=
  let d : Props := {}
  { default := d
    fields := fun p =>
      [("fill", .ofOption .string p.fill), ("outline", .string p.outline),
        ("border_width", count p.borderWidth)]
    record := Props.mk <$> .withDefault "fill" (.nullable .string) d.fill
      <*> stringField "outline" d.outline <*> countField "border_width" d.borderWidth }

def fillColor? (p : Props) (dark : Bool) : Option String :=
  (p.fill.filter fun f => !isBlankText f).bind fun f => Color.resolve? f .fill dark

def hint (dark : Bool) (w : Widget) : Except ExportError Hint := do
  let p ← schema.readForExport w
  return { color := Color.resolve? p.outline .outline dark, fill := fillColor? p dark }

def declarative (s : Setting) (_ : Resources) (f : Flavor) (w : Widget) :
    Except ExportError (List Instruction) := do
  let p ← schema.readForExport w
  let r := w.rect
  return [.ellipse {
    edges := ⟨r.x, r.y, r.right, r.bottom⟩
    fill := fillColor? p s.dark
    outline := s.drawnColor p.outline
    width := max p.borderWidth 1
    visible := if f = .openDisplay then some true else none }]

def kind : WidgetKind where
  descriptor :=
    { id := "odp_ellipse", name := "Ellipse", category := "OpenDisplay"
      targets := [.declarative .oepl, .declarative .openDisplay]
      capabilities := [.renderHint, .exportDeclarative]
      defaults := schema.defaults }
  typed w := (schema.read w).map schema.bag
  hint := hint
  declarative := declarative

end Dashboard.Kind.Ellipse
