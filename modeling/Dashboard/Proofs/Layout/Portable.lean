import Dashboard.Proofs.Kind.Blocks
import Dashboard.Proofs.Marker.Restored
/-!
# Portable layouts

What a layout has to be like for its drawing code to give all of it back: ids that are not blank, not
padded and distinct on a page, no tabs, page names without carriage returns, finite bounds, and no line
feeds in the texts that the sections write as they are. Pages are counted by machine numbers.
-/

namespace Dashboard

open Text Json Number

/-- A text under the name of a property: without tabs, and if it is registered as it is, on its line. -/
def IsPortableText (name text : String) : Prop :=
  '\t' ∉ text.toList ∧ (name ∈ rawKeys → OneLine text)

instance (name text : String) : Decidable (IsPortableText name text) :=
  inferInstanceAs (Decidable (_ ∧ _))

/-- If a value is a text, it satisfies a predicate. -/
def Json.HasText (T : String → Prop) : Json → Prop
  | .string text => T text
  | _ => True

instance (T : String → Prop) [DecidablePred T] : DecidablePred (Json.HasText T)
  | .string text => inferInstanceAs (Decidable (T text))
  | .null | .bool _ | .number _ | .array _ | .object _ => inferInstanceAs (Decidable True)

/-- The texts of a bag are portable. -/
def Bag.IsPortable (bag : Bag) : Prop := ∀ e ∈ bag, e.2.HasText (IsPortableText e.1)

/-- A reference to an entity without tabs and line feeds. -/
def IsReference (entity : String) : Prop := '\t' ∉ entity.toList ∧ OneLine entity

instance (entity : String) : Decidable (IsReference entity) := inferInstanceAs (Decidable (_ ∧ _))

structure Condition.IsPortable (c : Condition) : Prop where
  entity : ∀ e, c.entityId = some e → IsReference e
  operator : ∀ op, c.operator = some op → '\t' ∉ op.toList
  state : ∀ s, c.state = some s → '\t' ∉ s.toList
  finite : c.IsFinite

structure Widget.IsPortable (w : Widget) : Prop where
  id : nonBlank? w.id = some w.id
  idText : '\t' ∉ w.id.toList
  title : ∀ t, w.title = some t → '\t' ∉ t.toList
  entity : ∀ e, w.entityId = some e → IsReference e
  secondEntity : ∀ e, w.secondEntityId = some e → IsReference e
  /-- The entity does not come from the properties. -/
  named : w.entityId = none → w.entity? = none
  condition : w.condition.IsPortable
  props : w.props.IsPortable

structure Page.IsPortable (p : Page) : Prop where
  name : '\t' ∉ p.name.toList ∧ '\r' ∉ p.name.toList
  ids : (p.widgets.map Widget.id).Nodup
  widgets : ∀ w ∈ p.widgets, w.IsPortable

structure Layout.IsPortable (l : Layout) : Prop where
  hasPages : l.pages ≠ []
  pageCount : l.pages.length ≤ twoTo 64
  pages : ∀ p ∈ l.pages, p.IsPortable

theorem IsReference.nonBlank? {raw entity : String} (h : IsReference raw)
    (he : Text.nonBlank? raw = some entity) : IsReference entity := by
  obtain ⟨rfl, -⟩ := nonBlank?_eq_some he
  have hmem : ∀ {c}, c ∉ raw.toList → c ∉ (trim raw).toList := fun hc hm => by
    rw [trim, String.toList_ofList] at hm
    exact hc (mem_of_mem_trimChars hm)
  exact ⟨hmem h.1, hmem h.2⟩

theorem Bag.IsPortable.hasRaw {bag : Bag} (h : bag.IsPortable) : HasRaw OneLine bag := by
  intro key hkey text hfound
  have htext : IsPortableText key text := h (key, .string text) (Table.mem_of_find? hfound)
  exact htext.2 hkey

namespace Widget.IsPortable

variable {w : Widget}

theorem entity?_isReference (h : w.IsPortable) {e : String} (he : w.entity? = some e) :
    IsReference e := by
  cases hentity : w.entityId with
  | none =>
    rw [h.named hentity] at he
    exact nomatch he
  | some raw =>
    rw [Widget.entity?, hentity, Option.some_or, Option.bind_some] at he
    exact (h.entity raw hentity).nonBlank? he

theorem conditionEntity_isReference (h : w.IsPortable) {e : String} (he : w.condition.entity? = some e) :
    IsReference e := by
  obtain ⟨raw, hraw, he⟩ := Option.bind_eq_some_iff.mp he
  exact (h.condition.entity raw hraw).nonBlank? he

end Widget.IsPortable

theorem Condition.isPortable_inactive : ({} : Condition).IsPortable where
  entity := nofun
  operator := nofun
  state := nofun
  finite := ⟨by simp, by simp⟩

theorem Widget.isPortable_make {id kind : String} (h : Text.nonBlank? id = some id)
    (ht : '\t' ∉ id.toList) : (Widget.make id kind).IsPortable where
  id := h
  idText := ht
  title := nofun
  entity := nofun
  secondEntity := nofun
  named _ := rfl
  condition := Condition.isPortable_inactive
  props := fun _ he => absurd he List.not_mem_nil

/-! ## What a marker tells of a widget -/

/-- A condition without the bounds that no marker can name. -/
def Condition.writable (c : Condition) : Condition :=
  { c with lowest := c.lowest.filter Binary64.isFinite, highest := c.highest.filter Binary64.isFinite }

/-- A widget without its properties and without such bounds. Its marker is the same. -/
def Widget.bare (w : Widget) : Widget := { w with condition := w.condition.writable, props := [] }

theorem Condition.IsPortable.writable_eq {c : Condition} (h : c.IsPortable) : c.writable = c := by
  have hfilter : ∀ bound : Option Binary64, (∀ x, bound = some x → x.isFinite = true) →
      bound.filter Binary64.isFinite = bound := by
    intro bound hfinite
    cases bound with
    | none => rfl
    | some x => rw [Option.filter_some, if_pos (hfinite x rfl)]
  rw [writable, hfilter _ h.finite.lowest, hfilter _ h.finite.highest]

theorem Widget.IsPortable.bare {w : Widget} (h : w.IsPortable) : w.bare.IsPortable :=
  { h with
    named := fun hnone => by
      change w.entityId = none at hnone
      simp [Widget.entity?, Widget.bare, hnone, Table.find?]
    condition := by
      rw [Widget.bare, h.condition.writable_eq]
      exact h.condition
    props := fun _ he => absurd he List.not_mem_nil }

theorem Marker.encode_bare (w : Widget) (props : Bag) (aliases : Aliases) :
    Marker.encode w.bare props aliases = Marker.encode w props aliases := by
  have hbound : ∀ key bound, Marker.boundEntry key (Option.filter Binary64.isFinite bound) =
      Marker.boundEntry key bound := fun key bound => by
    simp [Marker.boundEntry, Option.filter_filter]
  have hcondition : Marker.conditionEntries w.condition.writable = Marker.conditionEntries w.condition := by
    simp only [Marker.conditionEntries, Condition.writable, hbound]
    rfl
  have hentries : Marker.entries w.bare props aliases = Marker.entries w props aliases := by
    simp only [Marker.entries, Marker.headEntries, Widget.bare, hcondition]
    rfl
  rw [Marker.encode_eq, Marker.encode_eq, hentries]
  rfl

/-! ## Entries without tabs -/

namespace Marker

theorem tab_not_mem_numeral {s : String} (h : ∀ c ∈ s.toList, IsNumeralChar c) : '\t' ∉ s.toList := by
  intro hmem
  rcases h '\t' hmem with hdigit | hsign
  · exact absurd hdigit (by decide)
  · exact absurd hsign (by decide)

theorem tab_not_mem_entryIf {key : String} {value : Option String}
    (h : ∀ v, value = some v → '\t' ∉ v.toList) : ∀ e ∈ entryIf key value, '\t' ∉ e.2.toList := by
  intro e he
  cases value with
  | none => exact absurd he List.not_mem_nil
  | some v => exact List.mem_singleton.mp he ▸ h v rfl

theorem eq_some_of_notBlank {value : Option String} {v : String} (h : notBlank value = some v) :
    value = some v := (Option.filter_eq_some_iff.mp h).1

theorem tab_not_mem_boundEntry (key : String) (bound : Option Binary64) :
    ∀ e ∈ boundEntry key bound, '\t' ∉ e.2.toList := by
  refine tab_not_mem_entryIf fun v hv => ?_
  obtain ⟨x, hx, rfl⟩ := Option.map_eq_some_iff.mp hv
  have hfinite : x.isFinite = true := (Option.filter_eq_some_iff.mp hx).2
  exact tab_not_mem_numeral fun _ hc => Binary64.isNumeralChar_documentText hfinite hc

theorem tab_not_mem_conditionEntries {c : Condition} (h : c.IsPortable) :
    ∀ e ∈ conditionEntries c, '\t' ∉ e.2.toList := by
  unfold conditionEntries
  cases hentity : c.entity? with
  | none => exact fun _ he => absurd he List.not_mem_nil
  | some entity =>
    obtain ⟨raw, hraw, he⟩ := Option.bind_eq_some_iff.mp hentity
    simp only [List.forall_mem_cons, List.forall_mem_append]
    exact ⟨((h.entity raw hraw).nonBlank? he).1,
      ⟨⟨tab_not_mem_entryIf fun op hop => h.operator op (eq_some_of_notBlank hop),
        tab_not_mem_entryIf h.state⟩, tab_not_mem_boundEntry _ _⟩, tab_not_mem_boundEntry _ _⟩

theorem tab_not_mem_headEntries {w : Widget} (h : w.IsPortable) (hkind : IsKey w.kind.toList) :
    ∀ e ∈ headEntries w, '\t' ∉ e.2.toList := by
  have hpixel : ∀ i, '\t' ∉ (intText i).toList := fun i =>
    tab_not_mem_numeral fun _ hc => isNumeralChar_intText hc
  simp only [headEntries, List.forall_mem_append, List.forall_mem_cons, List.not_mem_nil,
    false_implies, implies_true, and_true]
  exact ⟨⟨⟨⟨⟨h.idText, not_mem_of_isKey (by decide) hkind, hpixel _, hpixel _, hpixel _, hpixel _⟩,
    tab_not_mem_entryIf fun t ht => h.title t (eq_some_of_notBlank ht)⟩,
    tab_not_mem_entryIf fun e he => (h.entity e (eq_some_of_notBlank he)).1⟩,
    tab_not_mem_entryIf fun e he => (h.secondEntity e (eq_some_of_notBlank he)).1⟩,
    tab_not_mem_conditionEntries h.condition⟩

theorem Matches.tab_not_mem {template v : Json} (h : Matches template v)
    (hv : v.HasText fun text => '\t' ∉ text.toList) {raw : String} (hraw : textOf? v = some raw) :
    '\t' ∉ raw.toList := by
  cases h with
  | string template s => exact Option.some.inj hraw ▸ hv
  | bool template b =>
    obtain rfl := Option.some.inj hraw
    cases b <;> decide
  | whole template low high =>
    obtain rfl := Option.some.inj hraw
    exact tab_not_mem_numeral fun _ hc => isNumeralChar_intText hc

end Marker

end Dashboard
