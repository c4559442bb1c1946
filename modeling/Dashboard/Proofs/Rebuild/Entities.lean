import Dashboard.Proofs.Rebuild.Origins
import Dashboard.Proofs.Rebuild.RoundTrip
/-!
# Entities come back

A marker tells the entity that stands in the field of a widget. A widget may also take its entity from the
property of that name; no kind has such a property, so it is not written, and the widget comes back
without an entity. All other widgets keep theirs, whatever the bounds of their conditions are.
-/

namespace Dashboard

open Text Json Number

/-- The texts of a widget, those of its properties among them. -/
def Widget.texts (w : Widget) : List String :=
  w.id :: (w.title.toList ++ w.entityId.toList ++ w.secondEntityId.toList ++
    w.condition.entityId.toList ++ w.condition.operator.toList ++ w.condition.state.toList ++
    w.props.filterMap fun e => e.2.string?)

/-- A widget with an id that is not blank and not padded, and without tabs and line feeds in its texts. -/
structure Widget.HasPlainTexts (w : Widget) : Prop where
  id : nonBlank? w.id = some w.id
  texts : ∀ t ∈ w.texts, '\t' ∉ t.toList ∧ OneLine t

/-- A widget that came back with the entity of its field. That is the entity of the widget, unless it is
a property. -/
structure Widget.KeepsField (w back : Widget) : Prop where
  id : back.id = w.id
  entity : back.entity? = w.entityId.bind nonBlank?
  kept : back.entity? = w.entity? ↔ (w.entityId = none → w.entity? = none)

namespace Widget

variable {w : Widget}

theorem entity?_of_entityId {entity : String} (h : w.entityId = some entity) :
    w.entity? = w.entityId.bind nonBlank? := by
  rw [entity?, h, Option.some_or]

/-- The field counts alone, or the entity is a property and the field is not there. -/
theorem bind_entityId_eq_iff (w : Widget) :
    w.entityId.bind nonBlank? = w.entity? ↔ (w.entityId = none → w.entity? = none) := by
  cases h : w.entityId with
  | none =>
    rw [Option.bind_none]
    exact ⟨fun he _ => he.symm, fun he => (he rfl).symm⟩
  | some entity =>
    have hentity := entity?_of_entityId h
    rw [h] at hentity
    exact ⟨fun _ hnone => (nomatch hnone), fun _ => hentity.symm⟩

namespace HasPlainTexts

theorem props (h : w.HasPlainTexts) : w.props.IsPortable := by
  intro e he
  cases hvalue : e.2 with
  | string text =>
    have hmem : text ∈ w.props.filterMap fun e => e.2.string? :=
      List.mem_filterMap.mpr ⟨e, he, by rw [hvalue]; rfl⟩
    obtain ⟨htab, hline⟩ := h.texts text (List.mem_cons_of_mem _ (List.mem_append_right _ hmem))
    exact ⟨htab, fun _ => hline⟩
  | _ => trivial

theorem bare (h : w.HasPlainTexts) : w.bare.IsPortable := by
  have htexts := h.texts
  simp only [Widget.texts, List.forall_mem_cons, List.forall_mem_append, Option.mem_toList] at htexts
  obtain ⟨hid, ⟨⟨⟨⟨⟨htitle, hentity⟩, hsecond⟩, hcondition⟩, hoperator⟩, hstate⟩, -⟩ := htexts
  constructor
  case id => exact h.id
  case idText => exact hid.1
  case title => exact fun t ht => (htitle t ht).1
  case entity => exact hentity
  case secondEntity => exact hsecond
  case named =>
    intro hnone
    change w.entityId = none at hnone
    simp [Widget.entity?, Widget.bare, hnone, Table.find?]
  case condition =>
    refine ⟨hcondition, fun op hop => (hoperator op hop).1, fun s hs => (hstate s hs).1, ?_, ?_⟩
    · exact fun x hx => (Option.filter_eq_some_iff.mp hx).2
    · exact fun x hx => (Option.filter_eq_some_iff.mp hx).2
  case props => exact fun _ he => absurd he List.not_mem_nil

theorem hasEntities (h : w.HasPlainTexts) : w.HasEntities OneLine := by
  have hbare := h.bare
  refine ⟨fun e he => ?_, fun e he => (hbare.secondEntity e he).2, fun e he => ?_⟩
  · obtain ⟨raw, hraw, he⟩ := Option.bind_eq_some_iff.mp he
    obtain ⟨rfl, -⟩ := nonBlank?_eq_some he
    refine Registry.oneLine_trim ?_
    rcases Option.or_eq_some_iff.mp hraw with hfield | ⟨-, hprop⟩
    · exact (hbare.entity raw hfield).2
    · obtain ⟨v, hv, hstring⟩ := Option.bind_eq_some_iff.mp hprop
      have hmem : raw ∈ w.props.filterMap fun e => e.2.string? :=
        List.mem_filterMap.mpr ⟨("entity_id", v), Table.mem_of_find? hv, hstring⟩
      exact (h.texts raw (List.mem_cons_of_mem _ (List.mem_append_right _ hmem))).2
  · exact (hbare.conditionEntity_isReference he).2

variable {g : Registry} {s : Setting}

theorem comesBack (hg : g.IsWritten) (hr : g.IsReturned) (hs : s.target = .procedural)
    (h : w.HasPlainTexts) (hemitted : w.IsEmitted g s) : w.ComesBack g KeepsField := by
  intro b hb ordinal line
  obtain ⟨k, bag, back, -, -, -, hfree, hback, hrestored⟩ :=
    exists_restored hg hr hs h.bare h.props hemitted hb ordinal line
  have hfield : back.entityId = Marker.notBlank w.entityId := hrestored.entityId
  have hentity : back.entity? = w.entityId.bind nonBlank? := by
    rw [entity?_eq (by rw [hrestored.props, hfree]), hfield, Marker.bind_notBlank]
  exact ⟨back, hback, hrestored.id, hrestored.id, hentity, hentity ▸ bind_entityId_eq_iff w⟩

end HasPlainTexts

end Widget

namespace Registry

variable {o : Options} {l : Layout}

/-- A layout that is emitted as a whole comes back with the entities of its fields. -/
theorem exists_back_keepsField (ho : o.IsOneLine) (hpages : l.pages ≠ [])
    (hcount : l.pages.length ≤ twoTo 64) (hids : ∀ p ∈ l.pages, (p.widgets.map Widget.id).Nodup)
    (hwidgets : ∀ w ∈ l.widgets, w.HasPlainTexts)
    (hall : (compile builtin o l .procedural).emitted = l.widgets.length) : ∃ back : Layout,
      Layout.ofConfiguration builtin (compile builtin o l .procedural).output.text = (back, []) ∧
        List.Forall₂ (Page.ComesBack Widget.KeepsField) l.pages back.pages := by
  have hlayout := emittedLayout_eq hall
  have hemitted : ∀ w ∈ l.widgets, w.IsEmitted builtin (settingOf o l .procedural) := fun w hw =>
    isEmitted_of_emittedLayout_eq hlayout hw
  have hraw := oneLine_rawTexts isWritten_builtin ho
    (fun w hw => Widget.hasRawTexts_of_props isReturned_builtin rfl (hwidgets w hw).props (hemitted w hw))
    (fun w hw => (hwidgets w hw).hasEntities)
  exact ofConfiguration_comesBack isWritten_builtin ho hpages hcount hraw hlayout hids
    (fun w hw => (hwidgets w hw).comesBack isWritten_builtin isReturned_builtin rfl (hemitted w hw))

/-- Two texts that show the same entity: one names it in its field, the other in its properties. -/
def boundPage : Page :=
  { Page.make 0 with widgets := [
      { Widget.make "field" "text" with
        entityId := some " sensor.hall "
        condition := { entityId := some "sensor.door", lowest := some (.infinite false) } },
      (Widget.make "property" "text").withProp "entity_id" (.string "sensor.hall")] }

theorem hasPlainTexts_boundPage : ∀ w ∈ boundPage.widgets, w.HasPlainTexts :=
  List.forall_mem_cons.mpr ⟨⟨by decide, by decide⟩, List.forall_mem_singleton.mpr ⟨by decide, by decide⟩⟩

end Registry

end Dashboard
