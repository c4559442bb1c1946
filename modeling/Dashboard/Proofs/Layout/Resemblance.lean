import Dashboard.Document.Procedural
import Dashboard.Proofs.Marker.Restored
/-!
# What drawing code sees of a widget

Of its texts a widget shows the trimmed ones only, and of its condition the guard. So a widget that came
back from its marker looks like the one that was written, even though blank texts are gone.
-/

namespace Dashboard

open Text Json

/-- A widget that drawing code cannot tell from another one, its properties apart. -/
structure Widget.Resembles (w back : Widget) : Prop where
  id : back.id = w.id
  kind : back.kind = w.kind
  rect : back.rect = w.rect
  title : back.title.bind nonBlank? = w.title.bind nonBlank?
  entity : back.entity? = w.entity?
  secondEntity : back.secondEntityId.bind nonBlank? = w.secondEntityId.bind nonBlank?
  conditionEntity : back.condition.entity? = w.condition.entity?
  guard : back.condition.guard? = w.condition.guard?
  marker : ∀ bag aliases, Marker.encode back bag aliases = Marker.encode w bag aliases

namespace Marker

theorem bind_notBlank (value : Option String) :
    (notBlank value).bind nonBlank? = value.bind nonBlank? := by
  cases value with
  | none => rfl
  | some s =>
    cases hs : isBlankText s with
    | true =>
      have hnone : notBlank (some s) = none := by simp [notBlank, Option.filter, hs]
      rw [hnone, Option.bind_some, nonBlank?_of_isBlankText hs, Option.bind_none]
    | false =>
      have hsome : notBlank (some s) = some s := by simp [notBlank, Option.filter, hs]
      rw [hsome]

theorem notBlank_notBlank (value : Option String) : notBlank (notBlank value) = notBlank value := by
  simp [notBlank, Option.filter_filter]

end Marker

namespace Condition

theorem entity?_kept (c : Condition) : c.kept.entity? = c.entity? := by
  unfold kept
  cases hentity : c.entity? with
  | none => rfl
  | some entity =>
    obtain ⟨raw, -, he⟩ := Option.bind_eq_some_iff.mp hentity
    simp only [entity?, Option.bind_some]
    exact nonBlank?_of_nonBlank? he

theorem operatorOf_kept {c : Condition} (h : c.entity? ≠ none) : c.kept.operatorOf = c.operatorOf := by
  unfold kept operatorOf
  cases hentity : c.entity? with
  | none => exact absurd hentity h
  | some entity => rw [Marker.bind_notBlank]

theorem guard?_kept (c : Condition) : c.kept.guard? = c.guard? := by
  unfold guard?
  rw [entity?_kept]
  cases hentity : c.entity? with
  | none => rfl
  | some entity =>
    have hoperator : c.kept.operatorOf = c.operatorOf := operatorOf_kept (by simp [hentity])
    have hstate : c.kept.state = c.state := by rw [kept, hentity]
    have hlowest : c.kept.lowest = c.lowest := by rw [kept, hentity]
    have hhighest : c.kept.highest = c.highest := by rw [kept, hentity]
    have hguard : c.kept.guardFor? = c.guardFor? := by
      funext e
      simp only [guardFor?, rangeGuard?, comparedNumber?, hoperator, hstate, hlowest, hhighest]
    rw [hguard]

theorem writtenCondition_kept (c : Condition) :
    Marker.writtenCondition c.kept = Marker.writtenCondition c := by
  unfold Marker.writtenCondition
  rw [entity?_kept]
  cases hentity : c.entity? with
  | none => rfl
  | some entity =>
    have hkept : c.kept = { c with entityId := some entity, operator := Marker.notBlank c.operator } := by
      rw [kept, hentity]
    rw [hkept]
    simp only [Marker.notBlank_notBlank]

end Condition

namespace Widget

theorem entity?_eq {w : Widget} (h : w.props.find? "entity_id" = none) :
    w.entity? = w.entityId.bind nonBlank? := by
  rw [entity?, h, Option.bind_none, Option.or_none]

/-- A widget that was brought back looks like the written one, if its entity is not a property. -/
theorem IsRestored.resembles {w back : Widget} {bag : Bag} (h : w.IsRestored bag back)
    (hnamed : w.entityId = none → w.entity? = none) (hbag : bag.find? "entity_id" = none) :
    w.Resembles back := by
  have hentity : back.entity? = w.entity? := by
    rw [entity?_eq (by rw [h.props, hbag]), h.entityId, Marker.bind_notBlank]
    cases he : w.entityId with
    | none => rw [hnamed he, Option.bind_none]
    | some e => rw [entity?, he, Option.some_or]
  constructor
  case id => exact h.id
  case kind => exact h.kind
  case rect => exact h.rect
  case title => rw [h.title, Marker.bind_notBlank]
  case entity => exact hentity
  case secondEntity => rw [h.secondEntityId, Marker.bind_notBlank]
  case conditionEntity => rw [h.condition, Condition.entity?_kept]
  case guard => rw [h.condition, Condition.guard?_kept]
  case marker =>
    intro bag aliases
    unfold Marker.encode
    rw [h.kind, h.id, h.rect, h.title, h.entityId, h.secondEntityId, h.condition,
      Condition.writtenCondition_kept]
    simp only [Marker.notBlank_notBlank]

end Widget

end Dashboard
