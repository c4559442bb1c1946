import Dashboard.Proofs.Compile.Registered
import Dashboard.Proofs.Compile.Run
import Dashboard.Proofs.Document.Triggers
/-!
# Registering entities

After the widgets were emitted, their entities are registered: kind by kind those of the widgets whose
kind resolves them, then those of the guards. All of it are single registrations, so a property of the
triggers that each of these keeps holds in the end if it holds after the widgets.
-/

namespace Dashboard

open Emission

/-- The registrations for an entity that a widget names keep a property of triggers. -/
def Setting.Keeps (s : Setting) (I : Triggers → Prop) (id : String) (raw : Option String) : Prop :=
  ∀ entity action, raw.bind Entity.normalize? = some entity → s.refreshAction? id = some action →
    ∀ t, I t → I (t.register entity action)

/-- All registrations for a widget keep a property of triggers. -/
structure Widget.Keeps (g : Registry) (s : Setting) (I : Triggers → Prop) (w : Widget) : Prop where
  resolved : ∀ k, g.kind? w.kind = some k → k.descriptor.supports .resolveEntities = true →
    k.descriptor.supportsTarget s.target = true → ∀ raw ∈ [w.entity?, w.secondEntityId], s.Keeps I w.id raw
  guard : s.target = .procedural → s.Keeps I w.id w.condition.entity?

theorem Setting.keeps_isFrom (s : Setting) {E : Set String} (id : String) {raw : Option String}
    (h : ∀ e, raw.bind Entity.normalize? = some e → e ∈ E) : s.Keeps (Triggers.IsFrom E) id raw := by
  intro entity action hentity _ t ht
  obtain ⟨text, -, hnormal⟩ := Option.bind_eq_some_iff.mp hentity
  exact ht.register (h entity hentity) (Entity.normalize?_of_normalize? hnormal) action

/-- A kind that resolves entities in the common way if it resolves any. -/
def WidgetKind.ResolvesInCommon (k : WidgetKind) : Prop := k.ResolvesNothing ∨ k.resolve = Kind.resolveWidgets

theorem WidgetKind.resolvesInCommon_of_supports {k : WidgetKind}
    (h : k.descriptor.supports .resolveEntities = true → k.resolve = Kind.resolveWidgets) :
    k.ResolvesInCommon := by
  cases hresolves : k.descriptor.supports .resolveEntities with
  | false => exact .inl (.inl hresolves)
  | true => exact .inr (h hresolves)

theorem WidgetKind.ResolvesInCommon.triggersOnly {k : WidgetKind} (hk : k.ResolvesInCommon) :
    k.ResolvesTriggersOnly := by
  rcases hk with hnothing | hcommon
  · exact hnothing.triggersOnly
  · intro _ s ws r
    rw [hcommon]
    exact Kind.resolveWidgets_triggers s ws r

variable {s : Setting} {I : Triggers → Prop} {r : Resources}

namespace Kind

theorem registerEntity_keeps {id : String} {raw : Option String} (h : s.Keeps I id raw) (hr : I r.triggers) :
    I (registerEntity s id raw r).triggers := by
  unfold registerEntity Resources.registerRefresh
  cases hraw : raw.bind Entity.normalize? with
  | none => exact hr
  | some entity =>
    cases haction : s.refreshAction? id with
    | none => simpa [haction] using hr
    | some action => simpa [haction] using h entity action hraw haction r.triggers hr

theorem registerEntities_keeps {w : Widget} (h : ∀ raw ∈ [w.entity?, w.secondEntityId], s.Keeps I w.id raw)
    (hr : I r.triggers) : I (registerEntities s r w).triggers :=
  registerEntity_keeps (h w.secondEntityId (by simp)) (registerEntity_keeps (h w.entity? (by simp)) hr)

theorem foldl_keeps {f : Resources → Widget → Resources} {ws : List Widget}
    (h : ∀ w ∈ ws, ∀ r : Resources, I r.triggers → I (f r w).triggers) (hr : I r.triggers) :
    I (ws.foldl f r).triggers :=
  List.foldlRecOn (motive := fun r => I r.triggers) ws f hr fun r hr w hw => h w hw r hr

end Kind

namespace Registry

variable {g : Registry} {ws : List Widget}

theorem resolveKind_keeps (hg : g.All WidgetKind.ResolvesInCommon) (h : ∀ w ∈ ws, w.Keeps g s I) (kind : String)
    (hr : I r.triggers) : I (resolveKind g s ws kind r).2.triggers := by
  unfold resolveKind
  cases hk : g.kind? kind with
  | none => exact hr
  | some k =>
    by_cases hresolves : (k.descriptor.supports .resolveEntities &&
        k.descriptor.supportsTarget s.target) = true
    · obtain ⟨hentities, htarget⟩ := Bool.and_eq_true_iff.mp hresolves
      rcases hg kind k hk with (hnone | hpure) | hcommon
      · exact absurd hentities (hnone ▸ Bool.false_ne_true)
      · simp only [hresolves, if_true, hpure]
        exact hr
      · simp only [hresolves, if_true, hcommon]
        refine Kind.foldl_keeps (fun w hw r hr => Kind.registerEntities_keeps ?_ hr) hr
        obtain ⟨hmem, hkind⟩ := List.mem_filter.mp hw
        exact (h w hmem).resolved k (eq_of_beq hkind ▸ hk) hentities htarget
    · simp only [hresolves]
      exact hr

theorem resolveKinds_keeps (hg : g.All WidgetKind.ResolvesInCommon) (h : ∀ w ∈ ws, w.Keeps g s I)
    (kinds : List String) (hr : I r.triggers) : I (resolveKinds g s ws kinds r).2.triggers := by
  induction kinds generalizing r with
  | nil => exact hr
  | cons kind kinds ih => exact ih (resolveKind_keeps hg h kind hr)

theorem registerConditions_keeps (h : ∀ w ∈ ws, w.Keeps g s I) (hr : I r.triggers) :
    I (registerConditions s ws r).triggers := by
  unfold registerConditions
  split
  · next hs => exact Kind.foldl_keeps (fun w hw r hr => Kind.registerEntity_keeps ((h w hw).guard hs) hr) hr
  · exact hr

theorem resourcesOf_keeps {o : Options} {l : Layout} {t : Target} (hg : g.All WidgetKind.ResolvesInCommon)
    (h : ∀ w ∈ l.widgets, w.Keeps g (settingOf o l t) I)
    (hr : I (compilePages g (settingOf o l t) 0 l.pages {}).2.triggers) : I (resourcesOf g o l t).triggers :=
  registerConditions_keeps h (resolveKinds_keeps hg h _ hr)

end Registry

end Dashboard
