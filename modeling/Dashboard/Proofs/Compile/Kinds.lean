import Dashboard.Compile.Layout
import Dashboard.Proofs.Compile.Emission
/-!
# What the built-in kinds share

Every built-in kind is oblivious: what a widget puts on its page, and whether it puts anything
there, does not depend on the widgets before it. Resolving the entities of a built-in kind never
fails and registers triggers only.
-/

namespace Dashboard

open Emission

namespace Kind

theorem Shape.Paint.register_oblivious (p : Shape.Paint) (s : Setting) :
    Oblivious (p.register s) := by
  have outline : ∀ fill : Option String, Oblivious (do
      let outline ← Emission.register (Resources.colorConstant s p.outlineColor .outline)
      return (fill, outline)) := fun fill => .bind (.colorConstant _ _ _) fun _ => .pure _
  unfold Shape.Paint.register
  cases p.fill with
  | true => exact .bind (.colorConstant? _ _ _) outline
  | false => exact .bind (.pure _) outline

theorem Rectangle.procedural_oblivious (s : Setting) (w : Widget) :
    Oblivious (Rectangle.procedural s w) :=
  .bind (.ofExcept _) fun p => .bind (p.paint.register_oblivious s) fun _ => .pure _

theorem Circle.procedural_oblivious (s : Setting) (w : Widget) : Oblivious (Circle.procedural s w) :=
  .bind (.ofExcept _) fun p => .bind (p.paint.register_oblivious s) fun _ => .pure _

theorem Line.procedural_oblivious (s : Setting) (w : Widget) : Oblivious (Line.procedural s w) :=
  .bind (.ofExcept _) fun _ => .bind (.colorConstant _ _ _) fun _ => .pure _

theorem TextBlock.collect_oblivious (s : Setting) (w : Widget) : Oblivious (TextBlock.collect s w) :=
  .bind (.ofExcept _) fun _ => .bind (.addFont _) fun _ => .pure _

theorem TextBlock.procedural_oblivious (s : Setting) (w : Widget) :
    Oblivious (TextBlock.procedural s w) :=
  .bind (.ofExcept _) fun _ => .bind (.addFont _) fun _ =>
    .bind (.colorConstant _ _ _) fun _ => .pure _

theorem Clock.collect_oblivious (s : Setting) (w : Widget) : Oblivious (Clock.collect s w) :=
  .bind (.ofExcept _) fun _ => .modify _

theorem Clock.procedural_oblivious (s : Setting) (w : Widget) : Oblivious (Clock.procedural s w) := by
  refine .bind (.ofExcept _) fun p => .bind (.colorConstant _ _ _) fun color => ?_
  cases p.format.secondaryPattern? with
  | some second => exact .bind (.addFont _) fun _ => .bind (.addFont _) fun _ => .pure _
  | none => exact .bind (.addFont _) fun _ => .pure _

theorem Chart.addTitleFont_oblivious (w : Widget) : Oblivious (Chart.addTitleFont w) :=
  .ite (.map _ (.addFont _)) (.pure _)

theorem Chart.collect_oblivious (s : Setting) (w : Widget) : Oblivious (Chart.collect s w) := by
  refine .bind (.ofExcept _) fun p => .bind (.ofExcept _) fun _ => .bind (.ofExcept _) fun read => ?_
  refine .bind (Chart.addTitleFont_oblivious w) fun _ => .ite ?_ (.pure _)
  exact .bind (.addGraph _) fun _ => .pure _

theorem Chart.procedural_oblivious (s : Setting) (w : Widget) : Oblivious (Chart.procedural s w) :=
  .bind (.ofExcept _) fun _ => .bind (.ofExcept _) fun _ => .bind (.colorConstant _ _ _) fun _ =>
    .bind (Chart.addTitleFont_oblivious w) fun _ => .pure _

theorem Label.collect_oblivious (s : Setting) (w : Widget) : Oblivious (Label.collect s w) :=
  .bind (.ofExcept _) fun _ => .bind (.addFont _) fun _ => .pure _

end Kind

namespace WidgetKind

/-- A kind whose output depends on its widget and the setting alone. -/
structure IsOblivious (k : WidgetKind) : Prop where
  collect : ∀ s w, Oblivious (k.collect s w)
  procedural : ∀ s w, Oblivious (k.procedural s w)
  retained : ∀ s r r' w, k.retained s r w = k.retained s r' w
  declarative : ∀ s r r' f w, k.declarative s r f w = k.declarative s r' f w

theorem isOblivious_of_builtin {k : WidgetKind} (hk : k ∈ Kind.builtin) : k.IsOblivious := by
  simp only [Kind.builtin, List.mem_cons, List.not_mem_nil, or_false] at hk
  rcases hk with rfl | rfl | rfl | rfl | rfl | rfl | rfl | rfl | rfl
  · exact ⟨Kind.Clock.collect_oblivious, Kind.Clock.procedural_oblivious, fun _ _ _ _ => rfl,
      fun _ _ _ _ _ => rfl⟩
  · exact ⟨Kind.TextBlock.collect_oblivious, Kind.TextBlock.procedural_oblivious, fun _ _ _ _ => rfl,
      fun _ _ _ _ _ => rfl⟩
  · exact ⟨fun _ _ => .pure _, Kind.Rectangle.procedural_oblivious, fun _ _ _ _ => rfl,
      fun _ _ _ _ _ => rfl⟩
  · exact ⟨fun _ _ => .pure _, Kind.Circle.procedural_oblivious, fun _ _ _ _ => rfl,
      fun _ _ _ _ _ => rfl⟩
  · exact ⟨fun _ _ => .pure _, Kind.Line.procedural_oblivious, fun _ _ _ _ => rfl,
      fun _ _ _ _ _ => rfl⟩
  · exact ⟨Kind.Chart.collect_oblivious, Kind.Chart.procedural_oblivious, fun _ _ _ _ => rfl,
      fun _ _ _ _ _ => rfl⟩
  · exact ⟨Kind.Label.collect_oblivious, fun _ _ => .pure _, fun _ _ _ _ => rfl,
      fun _ _ _ _ _ => rfl⟩
  · exact ⟨fun _ _ => .pure _, fun _ _ => .pure _, fun _ _ _ _ => rfl, fun _ _ _ _ _ => rfl⟩
  · exact ⟨fun _ _ => .pure _, fun _ _ => .pure _, fun _ _ _ _ => rfl, fun _ _ _ _ _ => rfl⟩

theorem IsOblivious.collectFor {k : WidgetKind} (hk : k.IsOblivious) (s : Setting) (w : Widget) :
    Oblivious (k.collectFor s w) :=
  .ite (hk.collect s w) (.pure _)

theorem IsOblivious.content {k : WidgetKind} (hk : k.IsOblivious) (s : Setting) (w : Widget) :
    Oblivious (k.content s w) := by
  unfold WidgetKind.content
  cases s.target with
  | procedural => exact .bind (hk.procedural s w) fun _ => .pure _
  | retained =>
    intro r r'
    simp only [runWith_bind, runWith_get, runWith_ofExcept, hk.retained s r r' w]
    cases k.retained s r' w <;> rfl
  | declarative f =>
    intro r r'
    simp only [runWith_bind, runWith_get, runWith_ofExcept, hk.declarative s r r' f w]
    cases k.declarative s r' f w <;> rfl

theorem IsOblivious.emit {k : WidgetKind} (hk : k.IsOblivious) (s : Setting) (w : Widget) :
    Oblivious (k.emit s w) :=
  .bind (hk.collectFor s w) fun _ => hk.content s w

/-- Resolving the entities of a kind succeeds and leaves fonts, colors and graphs as they are. -/
def ResolvesTriggersOnly (k : WidgetKind) : Prop :=
  k.descriptor.supports .resolveEntities = true →
    ∀ s ws r, ∃ triggers, runWith (k.resolve s ws) r = (.ok (), { r with triggers })

/-- A kind that does not implement the resolution of entities. -/
def ResolvesNothing (k : WidgetKind) : Prop :=
  k.descriptor.supports .resolveEntities = false ∨ ∀ s ws, k.resolve s ws = pure ()

theorem ResolvesNothing.triggersOnly {k : WidgetKind} (hk : k.ResolvesNothing) :
    k.ResolvesTriggersOnly := by
  intro hs s ws r
  rcases hk with hk | hk
  · exact absurd hs (by simp [hk])
  · exact ⟨r.triggers, by rw [hk, runWith_pure]⟩

end WidgetKind

namespace Kind

theorem registerEntity_triggers (s : Setting) (id : String) (entity : Option String)
    (r : Resources) : ∃ triggers, registerEntity s id entity r = { r with triggers } := by
  unfold registerEntity
  cases entity.bind Entity.normalize? with
  | none => exact ⟨r.triggers, rfl⟩
  | some e =>
    simp only [Resources.registerRefresh]
    cases s.refreshAction? id with
    | none => exact ⟨r.triggers, rfl⟩
    | some action => exact ⟨_, rfl⟩

theorem foldl_triggers {f : Resources → Widget → Resources}
    (hf : ∀ r w, ∃ triggers, f r w = { r with triggers }) (ws : List Widget) (r : Resources) :
    ∃ triggers, ws.foldl f r = { r with triggers } := by
  induction ws generalizing r with
  | nil => exact ⟨r.triggers, rfl⟩
  | cons w ws ih =>
    obtain ⟨t, ht⟩ := hf r w
    obtain ⟨t', ht'⟩ := ih (f r w)
    exact ⟨t', by rw [List.foldl_cons, ht', ht]⟩

theorem registerEntities_triggers (s : Setting) (r : Resources) (w : Widget) :
    ∃ triggers, registerEntities s r w = { r with triggers } := by
  obtain ⟨t, ht⟩ := registerEntity_triggers s w.id w.entity? r
  obtain ⟨t', ht'⟩ := registerEntity_triggers s w.id w.secondEntityId { r with triggers := t }
  exact ⟨t', by rw [registerEntities, ht, ht']⟩

theorem resolveWidgets_triggers (s : Setting) (ws : List Widget) (r : Resources) :
    ∃ triggers, runWith (resolveWidgets s ws) r = (.ok (), { r with triggers }) := by
  obtain ⟨t, ht⟩ := foldl_triggers (registerEntities_triggers s) ws r
  exact ⟨t, by rw [resolveWidgets, runWith_modify, ht]⟩

end Kind

theorem WidgetKind.resolvesTriggersOnly_of_builtin {k : WidgetKind} (hk : k ∈ Kind.builtin) :
    k.ResolvesTriggersOnly := by
  intro _ s ws r
  simp only [Kind.builtin, List.mem_cons, List.not_mem_nil, or_false] at hk
  rcases hk with rfl | rfl | rfl | rfl | rfl | rfl | rfl | rfl | rfl
  case inr.inl => exact Kind.resolveWidgets_triggers s ws r
  case inr.inr.inr.inr.inr.inl => exact Kind.resolveWidgets_triggers s ws r
  case inr.inr.inr.inr.inr.inr.inl => exact Kind.resolveWidgets_triggers s ws r
  all_goals exact ⟨r.triggers, rfl⟩

end Dashboard
