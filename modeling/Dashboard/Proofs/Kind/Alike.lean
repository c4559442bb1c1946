import Dashboard.Proofs.Kind.Overlaid
import Dashboard.Proofs.Layout.Resemblance
/-!
# Widgets that their kind cannot tell apart

A built-in kind sees the properties of a widget only as its schema reads them and the rest of the widget only as
widgets that resemble each other have it. Whatever the target is, such widgets register the same and are drawn the
same.
-/

namespace Dashboard

open Text Emission

/-- Widgets for which a kind registers and draws the same. -/
structure WidgetKind.DrawsAlike (k : WidgetKind) (w back : Widget) : Prop where
  collect : ∀ s, k.collect s back = k.collect s w
  procedural : ∀ s, k.procedural s back = k.procedural s w
  retained : ∀ s r, k.retained s r back = k.retained s r w
  declarative : ∀ s r f, k.declarative s r f back = k.declarative s r f w

variable {w back : Widget}

theorem Schema.readForExport_congr {P : Type} {schema : Schema P} (h : schema.read back = schema.read w) :
    schema.readForExport back = schema.readForExport w := by
  rw [readForExport, readForExport, h]

theorem RetainedNode.ofWidget_congr (h : w.Resembles back) (tag : String) : ofWidget tag back = ofWidget tag w := by
  rw [ofWidget, ofWidget, h.id, h.rect]

namespace Kind

theorem entityRead?_congr (h : w.Resembles back) : entityRead? back = entityRead? w := by
  rw [entityRead?, entityRead?, h.entity]

theorem start_congr (h : w.Resembles back) (bag : Bag) (aliases : Aliases) :
    Block.start back bag aliases = Block.start w bag aliases := by
  simp only [Block.start, h.marker, h.guard]

theorem Clock.drawsAlike (hread : schema.read back = schema.read w) (h : w.Resembles back) :
    kind.DrawsAlike w back where
  collect s := by
    change collect s back = collect s w
    simp only [collect, Schema.readForExport_congr hread]
  procedural s := by
    change procedural s back = procedural s w
    simp only [procedural, block, Schema.readForExport_congr hread, start_congr h, h.rect]
  retained s r := by
    change retained s r back = retained s r w
    simp only [retained, Schema.readForExport_congr hread, RetainedNode.ofWidget_congr h]
  declarative s r f := by
    change declarative s r f back = declarative s r f w
    simp only [declarative, Schema.readForExport_congr hread, h.rect]

theorem TextBlock.drawsAlike (hread : schema.read back = schema.read w) (h : w.Resembles back) :
    kind.DrawsAlike w back where
  collect s := by
    change collect s back = collect s w
    simp only [collect, Schema.readForExport_congr hread]
  procedural s := by
    change procedural s back = procedural s w
    simp only [procedural, statement, Schema.readForExport_congr hread, start_congr h, entityRead?_congr h, h.rect]
  retained s r := by
    change retained s r back = retained s r w
    simp only [retained, shownText, Schema.readForExport_congr hread, RetainedNode.ofWidget_congr h,
      entityRead?_congr h]
  declarative s r f := by
    change declarative s r f back = declarative s r f w
    simp only [declarative, shownTemplate, Schema.readForExport_congr hread, entityRead?_congr h, h.rect]

theorem Rectangle.drawsAlike (hread : schema.read back = schema.read w) (h : w.Resembles back) :
    kind.DrawsAlike w back where
  collect _ := rfl
  procedural s := by
    change procedural s back = procedural s w
    simp only [procedural, block, Schema.readForExport_congr hread, start_congr h, h.rect]
  retained s r := by
    change retained s r back = retained s r w
    simp only [retained, Schema.readForExport_congr hread, RetainedNode.ofWidget_congr h]
  declarative s r f := by
    change declarative s r f back = declarative s r f w
    simp only [declarative, Schema.readForExport_congr hread, h.rect]

theorem Circle.drawsAlike (hread : schema.read back = schema.read w) (h : w.Resembles back) :
    kind.DrawsAlike w back where
  collect _ := rfl
  procedural s := by
    change procedural s back = procedural s w
    simp only [procedural, block, Schema.readForExport_congr hread, start_congr h, h.rect]
  retained s r := by
    change retained s r back = retained s r w
    simp only [retained, diameter, Schema.readForExport_congr hread, RetainedNode.ofWidget_congr h, h.rect]
  declarative s r f := by
    change declarative s r f back = declarative s r f w
    simp only [declarative, Schema.readForExport_congr hread, h.rect]

theorem Line.drawsAlike (hread : schema.read back = schema.read w) (h : w.Resembles back) :
    kind.DrawsAlike w back where
  collect _ := rfl
  procedural s := by
    change procedural s back = procedural s w
    simp only [procedural, Schema.readForExport_congr hread, start_congr h, h.rect]
  retained s r := by
    change retained s r back = retained s r w
    simp only [retained, Schema.readForExport_congr hread, h.id, h.rect]
  declarative s r f := by
    change declarative s r f back = declarative s r f w
    simp only [declarative, Schema.readForExport_congr hread, h.rect]

namespace Chart

theorem entityOf_congr (h : w.Resembles back) : entityOf back = entityOf w := by
  simp only [entityOf, entityRead?_congr h, h.id]

theorem styleOf_congr (h : w.Resembles back) (p : Props) : styleOf p back = styleOf p w := by
  simp only [styleOf, h.id]

theorem addTitleFont_congr (h : w.Resembles back) : addTitleFont back = addTitleFont w := by
  have htitle : title? back = title? w := h.title
  rw [addTitleFont, addTitleFont, htitle]

theorem graph_congr (h : w.Resembles back) (p : Props) (read : EntityRead) :
    graph p back read = graph p w read := by
  simp only [graph, graphId, h.id, h.rect]

theorem block_congr (h : w.Resembles back) (p : Props) (color : String)
    (font : Option String) : block p back color font = block p w color font := by
  simp only [block, graphCall, graphId, title?, start_congr h, h.id, h.rect, h.title]

theorem drawsAlike (hread : schema.read back = schema.read w) (h : w.Resembles back) :
    kind.DrawsAlike w back where
  collect s := by
    change collect s back = collect s w
    simp only [collect, Schema.readForExport_congr hread, styleOf_congr h, entityOf_congr h, addTitleFont_congr h,
      graph_congr h]
  procedural s := by
    change procedural s back = procedural s w
    simp only [procedural, Schema.readForExport_congr hread, entityOf_congr h, addTitleFont_congr h, block_congr h]
  retained s r := by
    change retained s r back = retained s r w
    simp only [retained, Schema.readForExport_congr hread, styleOf_congr h, entityOf_congr h,
      RetainedNode.ofWidget_congr h]
  declarative _ _ _ := rfl

end Chart

theorem Label.drawsAlike (hread : schema.read back = schema.read w) (h : w.Resembles back) :
    kind.DrawsAlike w back where
  collect s := by
    change collect s back = collect s w
    simp only [collect, Schema.readForExport_congr hread]
  procedural _ := rfl
  retained s r := by
    change retained s r back = retained s r w
    simp only [retained, shownText, Schema.readForExport_congr hread, RetainedNode.ofWidget_congr h,
      entityRead?_congr h]
  declarative _ _ _ := rfl

theorem Image.drawsAlike (hread : schema.read back = schema.read w) (h : w.Resembles back) :
    kind.DrawsAlike w back where
  collect _ := rfl
  procedural _ := rfl
  retained s r := by
    change retained s r back = retained s r w
    simp only [retained, sourceOf, Schema.readForExport_congr hread, RetainedNode.ofWidget_congr h, h.id]
  declarative _ _ _ := rfl

theorem Ellipse.drawsAlike (hread : schema.read back = schema.read w) (h : w.Resembles back) :
    kind.DrawsAlike w back where
  collect _ := rfl
  procedural _ := rfl
  retained _ _ := rfl
  declarative s r f := by
    change declarative s r f back = declarative s r f w
    simp only [declarative, Schema.readForExport_congr hread, h.rect]

/-- Widgets that resemble each other are drawn alike by a built-in kind if its schema reads them the same. Each of these
schemas asks for the properties that it has defaults for. -/
theorem drawsAlike_of_builtin {k : WidgetKind} (hk : k ∈ builtin) (h : w.Resembles back)
    (hread : ∀ {P : Type} {schema : Schema P}, schema.IsLocal → schema.defaults = k.descriptor.defaults →
      schema.read back = schema.read w) : k.DrawsAlike w back := by
  simp only [builtin, List.mem_cons, List.not_mem_nil, or_false] at hk
  rcases hk with rfl | rfl | rfl | rfl | rfl | rfl | rfl | rfl | rfl
  · exact Clock.drawsAlike (hread Clock.isLocal rfl) h
  · exact TextBlock.drawsAlike (hread TextBlock.isLocal rfl) h
  · exact Rectangle.drawsAlike (hread Rectangle.isLocal rfl) h
  · exact Circle.drawsAlike (hread Circle.isLocal rfl) h
  · exact Line.drawsAlike (hread Line.isLocal rfl) h
  · exact Chart.drawsAlike (hread Chart.isLocal rfl) h
  · exact Label.drawsAlike (hread Label.isLocal rfl) h
  · exact Image.drawsAlike (hread Image.isLocal rfl) h
  · exact Ellipse.drawsAlike (hread Ellipse.isLocal rfl) h

end Kind

end Dashboard
