import Dashboard.Compile.Layout
import Dashboard.Proofs.Document.Lambdas
import Dashboard.Proofs.Json.Contents
import Dashboard.Proofs.Kind.Components
/-!
# Nodes are named for their widgets

Each kind that serves the retained GUI gives one node for a widget, and the node has the id of the widget.
What a kind collects are fonts and graphs; it leaves the entities alone, which are resolved later.
-/

namespace Dashboard

open Emission

namespace RetainedNode

variable {n : RetainedNode} {id key : String}

/-- A node that actions can name by an id. -/
def IsNamed (id : String) (n : RetainedNode) : Prop := n.props.find? "id" = some (.string id)

theorem isNamed_putId (id : String) (n : RetainedNode) : (n.putText "id" id).IsNamed id := by
  rw [IsNamed, putText, find?_put, if_pos rfl]

@[simp] theorem isNamed_put (hkey : "id" ≠ key) (value : Json) : (n.put key value).IsNamed id ↔ n.IsNamed id := by
  rw [IsNamed, find?_put, if_neg hkey, IsNamed]

@[simp] theorem isNamed_putText (hkey : "id" ≠ key) (value : String) :
    (n.putText key value).IsNamed id ↔ n.IsNamed id := isNamed_put hkey _

@[simp] theorem isNamed_putPixel (hkey : "id" ≠ key) (value : Pixel) :
    (n.putPixel key value).IsNamed id ↔ n.IsNamed id := isNamed_put hkey _

@[simp] theorem isNamed_putCount (hkey : "id" ≠ key) (value : UInt32) :
    (n.putCount key value).IsNamed id ↔ n.IsNamed id := isNamed_put hkey _

@[simp] theorem isNamed_putTextIf (hkey : "id" ≠ key) (value : Option String) :
    (n.putTextIf key value).IsNamed id ↔ n.IsNamed id := by
  rw [IsNamed, find?_putTextIf hkey, IsNamed]

@[simp] theorem isNamed_ofWidget (tag : String) (w : Widget) : (ofWidget tag w).IsNamed w.id := by
  simp only [ofWidget, ne_eq, String.reduceEq, not_false_eq_true, isNamed_putPixel]
  exact isNamed_putId w.id _

end RetainedNode

namespace WidgetKind

/-- A kind that gives one node for a widget, with the id of the widget. -/
def NamesNodes (k : WidgetKind) : Prop :=
  ∀ s r w ns, k.retained s r w = .ok ns → ∃ n, ns = [n] ∧ n.IsNamed w.id

/-- It is enough to look at the node that a kind makes of what it reads. -/
theorem namesNodes_of_node {k : WidgetKind} {P : Type} (read : Widget → Except ExportError P)
    {node : Setting → Widget → P → RetainedNode} (h : ∀ s r w, k.retained s r w = (do return [node s w (← read w)]))
    (hnode : ∀ s w p, (node s w p).IsNamed w.id) : k.NamesNodes := by
  intro s r w ns hns
  rw [h] at hns
  obtain ⟨p, -, hnodes⟩ := exists_of_bind hns
  exact ⟨_, (Except.ok.inj hnodes).symm, hnode s w p⟩

/-- A kind that collects for a document without touching its entities. -/
def CollectsApart (k : WidgetKind) : Prop :=
  ∀ s w triggers, Yields (fun r => r.triggers = triggers) (fun _ => True) (k.collect s w)

end WidgetKind

namespace Kind

open RetainedNode WidgetKind

theorem Chart.namesNodes : Chart.kind.NamesNodes := by
  intro s r w ns h
  obtain ⟨p, -, hp⟩ := exists_of_bind h
  obtain ⟨style, -, hstyle⟩ := exists_of_bind hp
  obtain ⟨read, -, hnodes⟩ := exists_of_bind hstyle
  exact ⟨_, (Except.ok.inj hnodes).symm, by simp⟩

theorem Image.namesNodes : Image.kind.NamesNodes := by
  intro s r w ns h
  obtain ⟨p, -, hp⟩ := exists_of_bind h
  obtain ⟨source, -, hnodes⟩ := exists_of_bind hp
  exact ⟨_, (Except.ok.inj hnodes).symm, by simp⟩

end Kind

namespace WidgetKind

open RetainedNode

theorem namesNodes_of_builtin {k : WidgetKind} (hk : k ∈ Kind.builtin) (hserves : k.serves .retained = true) :
    k.NamesNodes := by
  simp only [Kind.builtin, List.mem_cons, List.not_mem_nil, or_false] at hk
  rcases hk with rfl | rfl | rfl | rfl | rfl | rfl | rfl | rfl | rfl
  · exact namesNodes_of_node Kind.Clock.schema.readForExport (fun _ _ _ => rfl) (by simp)
  · exact namesNodes_of_node Kind.TextBlock.schema.readForExport (fun _ _ _ => rfl) (by simp)
  · exact namesNodes_of_node Kind.Rectangle.schema.readForExport (fun _ _ _ => rfl) (by simp)
  · exact namesNodes_of_node Kind.Circle.schema.readForExport (fun _ _ _ => rfl) (by simp)
  · exact namesNodes_of_node Kind.Line.schema.readForExport (fun _ _ _ => rfl) (by simp [isNamed_putId])
  · exact Kind.Chart.namesNodes
  · exact namesNodes_of_node Kind.Label.schema.readForExport (fun _ _ _ => rfl) (by simp)
  · exact Kind.Image.namesNodes
  · exact absurd hserves (by decide)

theorem collectsApart_of_builtin {k : WidgetKind} (hk : k ∈ Kind.builtin) : k.CollectsApart := fun s w triggers =>
  (Kind.registersWithin_of_builtin hk w (fun t _ => t = triggers) s fun _ _ _ _ h => h).1

end WidgetKind

end Dashboard
