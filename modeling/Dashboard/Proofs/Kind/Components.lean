import Dashboard.Kind.Registry
import Dashboard.Proofs.Kind.Blocks
/-!
# Components of the built-in kinds

Entities and graphs are the components of a document that hold data. While a widget is emitted, its kind
registers fonts and constants of colors, and a chart its graph; entities are left for later. So whatever the
graphs of the charts keep up holds of the components after all widgets.
-/

namespace Dashboard

open Emission

namespace Resources

/-- The entities and the graphs have a property. -/
def HasComponents (I : Triggers → Graphs → Prop) (r : Resources) : Prop := I r.triggers r.graphs

variable {I : Triggers → Graphs → Prop} {r : Resources}

theorem HasComponents.colorConstant? (h : r.HasComponents I) (s : Setting) (value : String) (role : ColorRole) :
    (colorConstant? s value role r).2.HasComponents I := by
  unfold Resources.colorConstant?
  cases s.color? value role with
  | none => exact h
  | some color => exact h

theorem HasComponents.colorConstant (h : r.HasComponents I) (s : Setting) (value : String) (role : ColorRole) :
    (colorConstant s value role r).2.HasComponents I := by
  have hafter := h.colorConstant? s value role
  unfold Resources.colorConstant
  rcases hc : Resources.colorConstant? s value role r with ⟨name, after⟩
  rw [hc] at hafter
  cases name with
  | some name => exact hafter
  | none => exact hafter

theorem HasComponents.addsFont (f : FontRequest) :
    Yields (HasComponents I) (fun _ => True) (Emission.register (addFont f)) :=
  .register fun _ hr => ⟨trivial, hr⟩

theorem HasComponents.addsConstant (s : Setting) (value : String) (role : ColorRole) :
    Yields (HasComponents I) (fun _ => True) (Emission.register (Resources.colorConstant s value role)) :=
  .register fun _ hr => ⟨trivial, hr.colorConstant s value role⟩

theorem HasComponents.takes {α : Type} (e : Except ExportError α) :
    Yields (HasComponents I) (fun a => e = .ok a) (Emission.ofExcept e) := .ofExcept fun _ h => h

end Resources

namespace WidgetKind

/-- The only components that a kind registers for a widget while it is emitted are graphs of a set. -/
def RegistersWithin (k : WidgetKind) (w : Widget) (own : Graph → Prop) : Prop :=
  ∀ (I : Triggers → Graphs → Prop) (s : Setting),
    (∀ graph, own graph → ∀ triggers graphs, I triggers graphs → I triggers (Graphs.add graph graphs).2) →
      Yields (Resources.HasComponents I) (fun _ => True) (k.collect s w) ∧
        Yields (Resources.HasComponents I) (fun _ => True) (k.procedural s w)

end WidgetKind

namespace Kind

open Resources.HasComponents

variable {I : Triggers → Graphs → Prop} {w : Widget} {own : Graph → Prop}

theorem Clock.registersWithin : Clock.kind.RegistersWithin w own := by
  intro I s _
  refine ⟨.bind (takes _) fun p _ => .modify fun r hr => ?_, .bind (takes _) fun p _ =>
    .bind (addsConstant s _ _) fun color _ => ?_⟩
  · exact List.foldlRecOn (motive := Resources.HasComponents I) p.fonts _ hr fun _ hr _ _ => hr
  · cases p.format.secondaryPattern? with
    | some second => exact .bind (addsFont _) fun _ _ => .bind (addsFont _) fun _ _ => .pure trivial
    | none => exact .bind (addsFont _) fun _ _ => .pure trivial

theorem TextBlock.registersWithin : TextBlock.kind.RegistersWithin w own := fun _ s _ =>
  ⟨.bind (takes _) fun _ _ => .bind (addsFont _) fun _ _ => .pure trivial,
    .bind (takes _) fun _ _ => .bind (addsFont _) fun _ _ =>
      .bind (addsConstant s _ _) fun _ _ => .pure trivial⟩

theorem Shape.addsConstants (p : Shape.Paint) (s : Setting) :
    Yields (Resources.HasComponents I) (fun _ => True) (p.register s) := by
  have houtline : ∀ fill : Option String, Yields (Resources.HasComponents I) (fun _ => True) (do
      let outline ← Emission.register (Resources.colorConstant s p.outlineColor .outline)
      return (fill, outline)) := fun _ => .bind (addsConstant s _ _) fun _ _ => .pure trivial
  unfold Shape.Paint.register
  cases p.fill with
  | true =>
    have hfill : Yields (Resources.HasComponents I) (fun _ => True)
        (Emission.register (Resources.colorConstant? s p.fillColor .fill)) :=
      .register fun _ hr => ⟨trivial, hr.colorConstant? s _ _⟩
    exact hfill.bind fun fill _ => houtline fill
  | false =>
    have hnone : Yields (Resources.HasComponents I) (fun _ => True) (Pure.pure none : Emission (Option String)) :=
      .pure trivial
    exact hnone.bind fun fill _ => houtline fill

theorem Rectangle.registersWithin : Rectangle.kind.RegistersWithin w own := fun _ s _ =>
  ⟨.pure trivial, .bind (takes _) fun p _ =>
    .bind (Shape.addsConstants p.paint s) fun _ _ => .pure trivial⟩

theorem Circle.registersWithin : Circle.kind.RegistersWithin w own := fun _ s _ =>
  ⟨.pure trivial, .bind (takes _) fun p _ =>
    .bind (Shape.addsConstants p.paint s) fun _ _ => .pure trivial⟩

theorem Line.registersWithin : Line.kind.RegistersWithin w own := fun _ s _ =>
  ⟨.pure trivial, .bind (takes _) fun _ _ => .bind (addsConstant s _ _) fun _ _ => .pure trivial⟩

theorem Label.registersWithin : Label.kind.RegistersWithin w own := fun _ _ _ =>
  ⟨.bind (takes _) fun _ _ => .bind (addsFont _) fun _ _ => .pure trivial, .pure trivial⟩

/-! ## Charts -/

namespace Chart

/-- The graph of a chart, with the properties and the entity of the chart. -/
def IsGraphOf (w : Widget) (graph : Graph) : Prop :=
  ∃ p read, schema.read w = .ok p ∧ entityRead? w = some read ∧ graph = Chart.graph p w read

theorem IsGraphOf.eq {graph other : Graph} (h : IsGraphOf w graph) (hother : IsGraphOf w other) :
    graph = other := by
  obtain ⟨p, read, hp, hread, rfl⟩ := h
  obtain ⟨p', read', hp', hread', rfl⟩ := hother
  rw [Except.ok.inj (hp.symm.trans hp'), Option.some.inj (hread.symm.trans hread')]

theorem entityRead?_of_entityOf {read : EntityRead} (h : entityOf w = .ok read) :
    entityRead? w = some read := by
  unfold entityOf at h
  split at h
  · next hread => exact hread.trans (congrArg some (Except.ok.inj h))
  · exact nomatch h

theorem yields_titleFont : Yields (Resources.HasComponents I) (fun _ => True) (addTitleFont w) := by
  unfold addTitleFont
  split
  · exact .map (addsFont _) fun _ _ => trivial
  · exact .pure trivial

theorem registersWithin (hown : ∀ graph, IsGraphOf w graph → own graph) : kind.RegistersWithin w own := by
  intro I s hgraph
  refine ⟨.bind (takes _) fun p hp => .bind (takes _) fun _ _ =>
    .bind (takes _) fun read hread => .bind yields_titleFont fun _ _ => ?_,
    .bind (takes _) fun p _ => .bind (takes _) fun _ _ =>
      .bind (addsConstant s _ _) fun _ _ => .bind yields_titleFont fun _ _ => .pure trivial⟩
  split
  · refine .bind (Q := fun _ => True) (.register fun r hr => ⟨trivial, ?_⟩) fun _ _ => .pure trivial
    exact hgraph _ (hown _ ⟨p, read, Schema.read_of_readForExport hp, entityRead?_of_entityOf hread, rfl⟩) _ _ hr
  · exact .pure trivial

end Chart

theorem registersWithin_of_builtin {k : WidgetKind} (hk : k ∈ builtin) (w : Widget) :
    k.RegistersWithin w fun graph => k.id = "chart" ∧ Chart.IsGraphOf w graph := by
  simp only [builtin, List.mem_cons, List.not_mem_nil, or_false] at hk
  rcases hk with rfl | rfl | rfl | rfl | rfl | rfl | rfl | rfl | rfl
  · exact Clock.registersWithin
  · exact TextBlock.registersWithin
  · exact Rectangle.registersWithin
  · exact Circle.registersWithin
  · exact Line.registersWithin
  · exact Chart.registersWithin fun _ h => ⟨rfl, h⟩
  · exact Label.registersWithin
  · exact fun _ _ _ => ⟨.pure trivial, .pure trivial⟩
  · exact fun _ _ _ => ⟨.pure trivial, .pure trivial⟩

end Kind

end Dashboard
