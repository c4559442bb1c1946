import Dashboard.Proofs.Compile.Emission
import Dashboard.Proofs.Kind.Alike
import Dashboard.Proofs.Kind.Drawn
import Dashboard.Proofs.Kind.Restored
/-!
# Widgets of the built-in kinds come back

Kind by kind, the marker of an emitted widget brings back its properties, and a widget that came back is
drawn like the one that was written.
-/

namespace Dashboard

open Emission Json

namespace WidgetKind

/-- A widget for which a kind gives its content, whatever was registered before. -/
def Emits (k : WidgetKind) (s : Setting) (w : Widget) : Prop :=
  ∃ r c after, runWith (k.emit s w) r = (.ok c, after)

/-- A bag of properties that the markers of a kind bring back. -/
structure Restores (k : WidgetKind) (bag : Bag) : Prop where
  marker : Marker.Restores k.aliases k.descriptor.defaults k.id bag
  entries : ∀ e ∈ Marker.propEntries bag k.aliases, Marker.IsKey e.1.toList ∧ '\t' ∉ e.2.toList
  free : Table.find? bag "entity_id" = none

/-- A kind of drawing code whose widgets come back. -/
structure IsReturned (k : WidgetKind) : Prop where
  portable : ∀ w bag, w.props.IsPortable → k.typed w = .ok bag → bag.IsPortable
  restores : ∀ s w bag, w.props.IsPortable → k.typed w = .ok bag → k.Emits s w → k.Restores bag
  typed : ∀ w back bag, k.typed w = .ok bag → back.props = bag → k.typed back = .ok bag
  again : ∀ s w back bag, k.typed w = .ok bag → back.props = bag → w.Resembles back →
    k.collect s back = k.collect s w ∧ k.procedural s back = k.procedural s w

theorem IsReturned.of_schema {k : WidgetKind} {P : Type} {schema : Schema P}
    (h : schema.IsRestorable k.aliases) (hkeys : schema.HasKeys k.aliases)
    (hdefaults : k.descriptor.defaults = schema.defaults)
    (htyped : ∀ w, k.typed w = (schema.read w).map schema.bag)
    (htype : ∀ s w p, schema.read w = .ok p → k.Emits s w → ∀ e ∈ schema.bag p,
      k.aliases.keyOf e.1 = "type" → Marker.textOf? e.2 ≠ some k.id)
    (halike : ∀ {w back}, schema.read back = schema.read w → w.Resembles back → k.DrawsAlike w back) :
    k.IsReturned := by
  have hread : ∀ {w bag}, k.typed w = .ok bag → ∃ p, schema.read w = .ok p ∧ schema.bag p = bag := by
    intro w bag hbag
    rw [htyped] at hbag
    cases hp : schema.read w with
    | error e =>
      rw [hp] at hbag
      exact nomatch hbag
    | ok p =>
      rw [hp] at hbag
      exact ⟨p, rfl, Except.ok.inj hbag⟩
  refine ⟨fun w bag hw hbag => ?_, fun s w bag hw hbag hemits => ?_, fun w back bag hbag hback => ?_,
    fun s w back bag hbag hback hresembles => ?_⟩
  · obtain ⟨p, hp, rfl⟩ := hread hbag
    exact h.isPortable hw hp
  · obtain ⟨p, hp, rfl⟩ := hread hbag
    have hportable := h.isPortable hw hp
    refine ⟨hdefaults ▸ h.restores (htype s w p hp hemits), fun e he => ?_, h.find?_entityId p⟩
    exact ⟨hkeys.propEntries p e he, h.tab_not_mem_propEntries hportable e he⟩
  · obtain ⟨p, hp, rfl⟩ := hread hbag
    rw [htyped, h.read_eq hback]
    rfl
  · obtain ⟨p, hp, rfl⟩ := hread hbag
    have hdrawn := halike ((h.read_eq hback).trans hp.symm) hresembles
    exact ⟨hdrawn.collect s, hdrawn.procedural s⟩

end WidgetKind

namespace Kind

theorem not_type {P : Type} {schema : Schema P} {aliases : Aliases} (h : schema.IsRestorable aliases)
    (hkeys : ∀ name ∈ schema.record.names, aliases.keyOf name ≠ "type") {p : P} {e : String × Json}
    (he : e ∈ schema.bag p) (htype : aliases.keyOf e.1 = "type") {kind : String} :
    Marker.textOf? e.2 ≠ some kind :=
  absurd htype (hkeys e.1 (h.mem_names he))

theorem Clock.isReturned : kind.IsReturned :=
  .of_schema isRestorable hasKeys rfl (fun _ => rfl)
    (fun s w p _ _ e he htype => not_type isRestorable (by decide) he htype) drawsAlike

theorem TextBlock.isReturned : kind.IsReturned :=
  .of_schema isRestorable hasKeys rfl (fun _ => rfl)
    (fun s w p _ _ e he htype => not_type isRestorable (by decide) he htype) drawsAlike

theorem Rectangle.isReturned : kind.IsReturned :=
  .of_schema isRestorable hasKeys rfl (fun _ => rfl)
    (fun s w p _ _ e he htype => not_type isRestorable (by decide) he htype) drawsAlike

theorem Circle.isReturned : kind.IsReturned :=
  .of_schema isRestorable hasKeys rfl (fun _ => rfl)
    (fun s w p _ _ e he htype => not_type isRestorable (by decide) he htype) drawsAlike

theorem Line.isReturned : kind.IsReturned :=
  .of_schema isRestorable hasKeys rfl (fun _ => rfl)
    (fun s w p _ _ e he htype => not_type isRestorable (by decide) he htype) drawsAlike

namespace Chart

theorem style_of_emits {w : Widget} {p : Props} (hp : schema.read w = .ok p) {s : Setting}
    (h : kind.Emits s w) : Style.ofName? p.style ≠ none := by
  have hkept : ∀ {α : Type} (e : Emission α), Style.ofName? p.style ≠ none →
      Yields (fun _ => True) (fun _ => Style.ofName? p.style ≠ none) e :=
    fun _ hstyle _ _ _ _ _ => ⟨hstyle, trivial⟩
  have hread : Yields (fun _ => True) (fun q => q = p) (Emission.ofExcept (schema.readForExport w)) :=
    .ofExcept fun q hq => Except.ok.inj ((Schema.read_of_readForExport hq).symm.trans hp)
  have hstyle : Yields (fun _ => True) (fun _ => Style.ofName? p.style ≠ none)
      (Emission.ofExcept (styleOf p w)) := by
    refine .ofExcept fun style hstyle hnone => ?_
    rw [styleOf, hnone] at hstyle
    cases hstyle
  have hcollect : Yields (fun _ => True) (fun _ => Style.ofName? p.style ≠ none) (collect s w) := by
    refine hread.bind fun q hq => ?_
    subst hq
    exact hstyle.bind fun _ hknown => hkept _ hknown
  obtain ⟨r, c, after, hrun⟩ := h
  have hfor : kind.collectFor s w = collect s w := rfl
  rw [WidgetKind.emit, hfor] at hrun
  exact ((hcollect.bind fun _ hknown => hkept _ hknown) r trivial c after hrun).1

theorem isReturned : kind.IsReturned := by
  refine .of_schema isRestorable hasKeys rfl (fun _ => rfl) (fun s w p hp hemits e he htype htext => ?_) drawsAlike
  have hunknown : Style.ofName? "chart" = none := by decide
  have hname : e.1 = "type" := htype
  have hstyle : Table.find? (schema.bag p) "type" = some (.string p.style) := by
    rw [Schema.bag, Table.find?_ofList]
    simp [schema, List.lookup_cons]
  have hfound := Table.find?_of_mem (Table.sorted_ofList _) he
  rw [hname] at hfound
  have hvalue : e.2 = .string p.style := Option.some.inj (hfound.symm.trans hstyle)
  rw [hvalue] at htext
  have hchart : p.style = "chart" := Option.some.inj htext
  exact style_of_emits hp hemits (hchart ▸ hunknown)

end Chart

/-- The built-in kinds of drawing code return their widgets. -/
theorem isReturned_of_builtin {k : WidgetKind} (hk : k ∈ builtin)
    (hserves : k.serves .procedural = true) : k.IsReturned := by
  simp only [builtin, List.mem_cons, List.not_mem_nil, or_false] at hk
  rcases hk with rfl | rfl | rfl | rfl | rfl | rfl | rfl | rfl | rfl
  · exact Clock.isReturned
  · exact TextBlock.isReturned
  · exact Rectangle.isReturned
  · exact Circle.isReturned
  · exact Line.isReturned
  · exact Chart.isReturned
  all_goals exact absurd hserves Bool.false_ne_true

end Kind

end Dashboard
