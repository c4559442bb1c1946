import Dashboard.Proofs.Compile.Alike
/-!
# What no document shows

Ids of pages, the orientation, further settings, fractions of pixels and conditions without an entity do not reach a
report. Layouts that differ in these only have the same report for every target.
-/

namespace Dashboard

/-- Conditions that are equal, or without effect both of them. -/
def Condition.DiffersUnseen (c other : Condition) : Prop :=
  other = c ∨ c.entity? = none ∧ other.entity? = none

structure Widget.DiffersUnseen (w other : Widget) : Prop where
  id : other.id = w.id
  kind : other.kind = w.kind
  rect : other.rect = w.rect
  title : other.title = w.title
  entityId : other.entityId = w.entityId
  secondEntityId : other.secondEntityId = w.secondEntityId
  condition : w.condition.DiffersUnseen other.condition
  props : other.props = w.props

structure Page.DiffersUnseen (p other : Page) : Prop where
  name : other.name = p.name
  refreshSeconds : other.refreshSeconds = p.refreshSeconds
  widgets : List.Forall₂ Widget.DiffersUnseen p.widgets other.widgets

/-- Layouts that may differ in the ids of their pages, in their orientation and further settings, in fractions of
pixels and in conditions without an entity. -/
structure Layout.DiffersUnseen (l other : Layout) : Prop where
  darkMode : other.settings.darkMode = l.settings.darkMode
  pages : List.Forall₂ Page.DiffersUnseen l.pages other.pages

namespace Condition.DiffersUnseen

variable {c other : Condition}

theorem entity? (h : c.DiffersUnseen other) : other.entity? = c.entity? := by
  rcases h with rfl | ⟨hc, hother⟩
  · rfl
  · rw [hc, hother]

theorem guard? (h : c.DiffersUnseen other) : other.guard? = c.guard? := by
  rcases h with rfl | ⟨hc, hother⟩
  · rfl
  · simp only [Condition.guard?, hc, hother, Option.bind_none]

theorem writtenCondition (h : c.DiffersUnseen other) :
    Marker.writtenCondition other = Marker.writtenCondition c := by
  rcases h with rfl | ⟨hc, hother⟩
  · rfl
  · simp only [Marker.writtenCondition, hc, hother]

end Condition.DiffersUnseen

namespace Widget.DiffersUnseen

variable {w other : Widget}

theorem resembles (h : w.DiffersUnseen other) : w.Resembles other where
  id := h.id
  kind := h.kind
  rect := h.rect
  title := by rw [h.title]
  entity := by rw [entity?, entity?, h.entityId, h.props]
  secondEntity := by rw [h.secondEntityId]
  conditionEntity := h.condition.entity?
  guard := h.condition.guard?
  marker bag aliases := by
    unfold Marker.encode
    rw [h.kind, h.id, h.rect, h.title, h.entityId, h.secondEntityId, h.condition.writtenCondition]

theorem read (h : w.DiffersUnseen other) {P : Type} (schema : Schema P) : schema.read other = schema.read w := by
  rw [Schema.read, Schema.read, h.props, h.id]

theorem emitsAs (h : w.DiffersUnseen other) (s : Setting) : w.EmitsAs .builtin s other where
  resembles := h.resembles
  emit _ hk :=
    (Kind.drawsAlike_of_builtin (Registry.kind?_ofKinds hk).1 h.resembles fun _ _ => h.read _).emit s

end Widget.DiffersUnseen

theorem Page.DiffersUnseen.emitsAs {p other : Page} (h : p.DiffersUnseen other) (s : Setting) :
    p.EmitsAs .builtin s other where
  name := h.name
  refreshSeconds := h.refreshSeconds
  widgets := h.widgets.imp fun _ _ hw => hw.emitsAs s

namespace Registry

/-- Layouts that differ only in what no document shows have the same report, whatever the target and the options
are. -/
theorem compile_unseen {l other : Layout} (h : l.DiffersUnseen other) (o : Options) (t : Target) :
    compile .builtin o other t = compile .builtin o l t :=
  compile_congr isWritten_builtin h.darkMode (h.pages.imp fun _ _ hp => hp.emitsAs _)

/-- A page under another id and another orientation, with a clock a third of a pixel off its place that has bounds for
the state of an entity with a blank name. -/
theorem compile_unseen_turned :
    let clock : Widget := .make "w_1" "datetime"
    let turned : Widget := { clock with
      x := .ofQuotient false 1 3
      condition := { entityId := some " ", lowest := some (.ofNat 20) } }
    let l : Layout := { pages := [{ Page.make 0 with widgets := [clock] }] }
    let other : Layout := {
      settings := { orientation := .portrait, extra := [("rotation", .ofNat 90)] }
      pages := [{ Page.make 0 with id := "hall", widgets := [turned] }] }
    l.DiffersUnseen other ∧ ∀ o t, compile .builtin o other t = compile .builtin o l t := by
  intro clock turned l other
  have hrect : turned.rect = clock.rect := by decide +kernel
  have hclock : clock.DiffersUnseen turned := ⟨rfl, rfl, hrect, rfl, rfl, rfl, .inr ⟨rfl, by decide⟩, rfl⟩
  have hl : l.DiffersUnseen other := ⟨rfl, .cons ⟨rfl, rfl, .cons hclock .nil⟩ .nil⟩
  exact ⟨hl, compile_unseen hl⟩

end Registry

end Dashboard
