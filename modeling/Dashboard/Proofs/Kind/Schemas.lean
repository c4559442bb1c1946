import Dashboard.Proofs.Kind.Overlaid
import Dashboard.Proofs.Layout.Portable
import Dashboard.Proofs.Marker.Values
/-!
# Properties that survive their marker

The properties of a widget, once read, are written under their names or aliases, and each of them is
read back by its default value. A bag of properties is itself a widget's bag that reads as the same
properties. The texts among them come from the widget or from the defaults.
-/

namespace Dashboard

open Text Json Number

theorem exists_mem_of_forall₂ {α β : Type} {R : α → β → Prop} {as : List α} {bs : List β}
    (h : List.Forall₂ R as bs) {b : β} (hb : b ∈ bs) : ∃ a ∈ as, R a b := by
  induction h with
  | nil => exact absurd hb List.not_mem_nil
  | @cons a b' as bs hab _ ih =>
    rcases List.mem_cons.mp hb with rfl | hb
    · exact ⟨a, List.mem_cons_self, hab⟩
    · obtain ⟨a', ha', hrel⟩ := ih hb
      exact ⟨a', List.mem_cons_of_mem a ha', hrel⟩

namespace Schema

variable {P : Type} {s : Schema P} {aliases : Aliases} {w : Widget} {p : P}

theorem ofJson_of_read (hp : s.read w = .ok p) :
    Json.ofJson (s.record.closed "") (.object (Bag.overlay s.defaults w.props)) = .ok p := by
  unfold Schema.read at hp
  split at hp
  · next q hq => exact Except.ok.inj hp ▸ hq
  · exact nomatch hp

/-- What holds of the texts of a widget and of the default texts holds of the texts that are read. -/
theorem takes_of_read {T : String → String → Prop} {Q : P → Prop}
    (htexts : s.record.Takes .value (Record.textsAre T) Q)
    (hdefaults : ∀ f ∈ s.fields s.default, f.2.HasText (T f.1))
    (hw : ∀ e ∈ w.props, e.2.HasText (T e.1)) (hp : s.read w = .ok p) : Q p := by
  refine htexts.closed (fun name text hfound => ?_) (ofJson_of_read hp)
  rcases Bag.mem_overlay (Table.mem_of_find? hfound) with hmem | hmem
  · exact hw (name, .string text) hmem
  · exact hdefaults (name, .string text) (Table.mem_ofList hmem)

/-- A schema whose properties survive their marker. -/
structure IsRestorable (s : Schema P) (aliases : Aliases) : Prop where
  names : ∀ p, (s.fields p).map Prod.fst = s.record.names
  distinct : s.record.names.Nodup
  accepts : ∀ (p : P) (fs : List (String × Json)),
    (∀ name v, (name, v) ∈ s.fields p → fs.lookup name = some v) → s.record.Accepts .value fs p
  matched : ∀ p, List.Forall₂ (fun d f => d.1 = f.1 ∧ Marker.Matches d.2 f.2) (s.fields s.default)
    (s.fields p)
  texts : s.record.Takes .value (Record.textsAre IsPortableText) fun p =>
    ∀ f ∈ s.fields p, f.2.HasText (IsPortableText f.1)
  defaultTexts : ∀ f ∈ s.fields s.default, f.2.HasText (IsPortableText f.1)
  aliased : ∀ name ∈ s.record.names, aliases.propertyOf (aliases.keyOf name) = name ∧
    aliases.keyOf name ∉ Marker.reservedKeys
  free : "entity_id" ∉ s.record.names

namespace IsRestorable

theorem nodup (h : s.IsRestorable aliases) (p : P) : ((s.fields p).map Prod.fst).Nodup :=
  h.names p ▸ h.distinct

theorem mem_bag_iff (h : s.IsRestorable aliases) {e : String × Json} : e ∈ s.bag p ↔ e ∈ s.fields p :=
  Table.mem_ofList_iff (h.nodup p)

theorem mem_names (h : s.IsRestorable aliases) {e : String × Json} (he : e ∈ s.bag p) :
    e.1 ∈ s.record.names := by
  rw [← h.names p]
  exact List.mem_map.mpr ⟨e, h.mem_bag_iff.mp he, rfl⟩

theorem exists_default (h : s.IsRestorable aliases) {e : String × Json} (he : e ∈ s.bag p) :
    ∃ d, Table.find? s.defaults e.1 = some d ∧ Marker.Matches d e.2 := by
  obtain ⟨d, hd, hname, hmatch⟩ := exists_mem_of_forall₂ (h.matched p) (h.mem_bag_iff.mp he)
  have hmem : (e.1, d.2) ∈ s.fields s.default := hname ▸ hd
  exact ⟨d.2, Table.find?_ofList_of_mem (h.nodup s.default) hmem, hmatch⟩

theorem isNull (h : s.IsRestorable aliases) : ∀ e ∈ s.bag p, e.2.isNull = false := by
  intro e he
  obtain ⟨d, -, hmatch⟩ := h.exists_default he
  exact hmatch.isNull

/-- A complete bag covers the defaults. -/
theorem overlay_bag (h : s.IsRestorable aliases) (p : P) : Bag.overlay s.defaults (s.bag p) = s.bag p := by
  have hsorted : Table.Sorted (s.bag p) := Table.sorted_ofList _
  have hdefaults : Table.Sorted s.defaults := Table.sorted_ofList _
  refine Table.eq_of_find? (Bag.sorted_overlay hdefaults) hsorted fun name => ?_
  rw [Bag.find?_overlay (Table.nodup_keys hsorted)]
  cases hname : Table.find? (s.bag p) name with
  | some v =>
    have hvalue : v.isNull = false := h.isNull _ (Table.mem_of_find? hname)
    simp [Option.filter, hvalue]
  | none =>
    rw [Option.filter_none, Option.none_or]
    refine Table.find?_eq_none fun hmem => ?_
    obtain ⟨e, he, rfl⟩ := List.mem_map.mp hmem
    have hfield : e.1 ∈ (s.fields p).map Prod.fst := by
      rw [h.names p]
      exact h.mem_names he
    obtain ⟨f, hf, hfe⟩ := List.mem_map.mp hfield
    have hfound := Table.find?_of_mem hsorted (h.mem_bag_iff.mpr hf)
    rw [hfe, hname] at hfound
    exact nomatch hfound

theorem read_of_overlay (h : s.IsRestorable aliases) (hw : Bag.overlay s.defaults w.props = s.bag p) :
    s.read w = .ok p := by
  have hread : Json.ofJson (s.record.closed "") (.object (s.bag p)) = .ok p :=
    (h.accepts p _ fun _ _ hmem => Table.find?_ofList_of_mem (h.nodup p) hmem).closed rfl
      (Table.nodup_keys (Table.sorted_ofList _)) ""
  rw [Schema.read, hw, hread]

/-- A widget that holds the written properties has these properties. -/
theorem read_eq (h : s.IsRestorable aliases) (hw : w.props = s.bag p) : s.read w = .ok p :=
  h.read_of_overlay (by rw [hw, h.overlay_bag])

theorem isPortable (h : s.IsRestorable aliases) (hw : w.props.IsPortable) (hp : s.read w = .ok p) :
    (s.bag p).IsPortable := by
  have htexts : ∀ f ∈ s.fields p, f.2.HasText (IsPortableText f.1) :=
    takes_of_read h.texts h.defaultTexts hw hp
  exact fun e he => htexts e (h.mem_bag_iff.mp he)

theorem find?_entityId (h : s.IsRestorable aliases) (p : P) : Table.find? (s.bag p) "entity_id" = none :=
  Table.find?_eq_none fun hmem => by
    obtain ⟨e, he, hname⟩ := List.mem_map.mp hmem
    exact h.free (hname ▸ h.mem_names he)

theorem restores (h : s.IsRestorable aliases) {kind : String}
    (hkind : ∀ e ∈ s.bag p, aliases.keyOf e.1 = "type" → Marker.textOf? e.2 ≠ some kind) :
    Marker.Restores aliases s.defaults kind (s.bag p) where
  sorted := Table.sorted_ofList _
  value := fun e he => by
    obtain ⟨d, hd, hmatch⟩ := h.exists_default he
    rw [hd]
    exact hmatch.decodeValue?
  key := fun e he => h.aliased e.1 (h.mem_names he)
  kind := hkind

theorem tab_not_mem_propEntries (h : s.IsRestorable aliases) (hp : (s.bag p).IsPortable) :
    ∀ e ∈ Marker.propEntries (s.bag p) aliases, '\t' ∉ e.2.toList := by
  intro e he
  obtain ⟨prop, hprop, -, hraw⟩ := Marker.mem_propEntries.mp he
  obtain ⟨d, -, hmatch⟩ := h.exists_default hprop
  have htext : prop.2.HasText fun text => '\t' ∉ text.toList := by
    have hportable := hp prop hprop
    cases hvalue : prop.2 with
    | string text =>
      rw [hvalue] at hportable
      exact hportable.1
    | _ => trivial
  exact hmatch.tab_not_mem htext hraw

end IsRestorable

end Schema

end Dashboard
