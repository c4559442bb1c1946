import Dashboard.Proofs.Marker.Values
import Dashboard.Proofs.Marker.Written
import Dashboard.Proofs.Number.Decimals
import Dashboard.Proofs.Table
import Dashboard.Rebuild.Layout
/-!
# The fields of a written marker

A clean marker line is read into a table of its entries. What stands in it under a reserved key is what
the widget wrote there, and the other fields are its properties. So the widget itself comes back: its id,
its box in whole pixels, its texts without the blank ones, and its condition as far as it is active.
-/

namespace Dashboard.Marker

open Dashboard.Text Dashboard.Json Dashboard.Number

/-! ## The table of entries -/

def fieldOf (e : String × String) : List Char × List Char := (e.1.toList, e.2.toList)

theorem toList_writtenEntries (es : Entries) :
    (writtenEntries es).toList = (es.map fieldOf).flatMap fieldText := by
  induction es with
  | nil => rw [writtenEntries_nil]; rfl
  | cons e es ih =>
    rw [writtenEntries_cons, String.toList_append, ih, List.map_cons, List.flatMap_cons]
    simp [written, encodeText, fieldText, fieldOf]

theorem fieldsOf_writtenEntries {es : Entries} (h : ∀ e ∈ es, IsKey e.1.toList) :
    fieldsOf (writtenEntries es).toList = es := by
  have hkeys : ∀ e ∈ es.map fieldOf, IsKey e.1 := List.forall_mem_map.mpr h
  have hback : (fun f => (String.ofList f.1, String.ofList f.2)) ∘ fieldOf = id := by
    funext e
    simp [fieldOf]
  rw [fieldsOf, toList_writtenEntries, fieldChars_written hkeys, List.map_map, hback, List.map_id]

theorem exists_encodeChars_concat (cs : List Char) :
    ∃ front c, encodeChars cs = front ++ [c] ∧ isBlank c = false := by
  unfold encodeChars
  cases hq : needsQuotes cs with
  | true => exact ⟨_, '"', rfl, by decide⟩
  | false =>
    obtain ⟨hne, hplain⟩ := plain_of_needsQuotes hq
    rcases List.eq_nil_or_concat cs with rfl | ⟨front, c, rfl⟩
    · exact absurd rfl hne
    · exact ⟨front, c, by simp, (hplain c (by simp)).1⟩

theorem dropBlankEnd_writtenEntries (value : String) (es : Entries) :
    dropBlankEnd (encodeText value ++ writtenEntries es).toList =
      (encodeText value ++ writtenEntries es).toList := by
  have hlast : ∀ (front : String) (v : String),
      ∃ cs c, (front ++ encodeText v).toList = cs ++ [c] ∧ isBlank c = false := by
    intro front v
    obtain ⟨cs, c, hcs, hc⟩ := exists_encodeChars_concat v.toList
    exact ⟨front.toList ++ cs, c, by rw [String.toList_append, encodeText, String.toList_ofList, hcs,
      List.append_assoc], hc⟩
  have hend : ∃ cs c, (encodeText value ++ writtenEntries es).toList = cs ++ [c] ∧
      isBlank c = false := by
    rcases List.eq_nil_or_concat es with rfl | ⟨front, e, rfl⟩
    · rw [writtenEntries_nil, String.append_empty, ← String.empty_append (s := encodeText value)]
      exact hlast "" value
    · rw [List.concat_eq_append, writtenEntries_append, writtenEntries_cons, writtenEntries_nil,
        String.append_empty, written, ← String.append_assoc, ← String.append_assoc]
      exact hlast _ e.2
  obtain ⟨cs, c, hcs, hc⟩ := hend
  rw [hcs, dropBlankEnd_concat hc]

variable {w : Widget} {props : Bag} {aliases : Aliases}

/-- The entries of a written marker are read back, if the first of them is the id. -/
theorem ofLine?_written {kind : String} (hkind : IsKey kind.toList) (id : String) {es : Entries}
    (hkeys : ∀ e ∈ es, IsKey e.1.toList) :
    Marker.ofLine? ("// widget:" ++ (kind ++ writtenEntries (("id", id) :: es))) =
      some ⟨kind, Table.ofList (("id", id) :: es)⟩ := by
  have hchars : ("// widget:" ++ (kind ++ writtenEntries (("id", id) :: es))).toList =
      "// widget:".toList ++ (kind.toList ++
        (" id:".toList ++ (encodeText id ++ writtenEntries es).toList)) := by
    rw [writtenEntries_cons, written]
    simp
  have hall : ∀ e ∈ ("id", id) :: es, IsKey e.1.toList :=
    List.forall_mem_cons.mpr ⟨(by decide : IsKey "id".toList), hkeys⟩
  have hfields : fieldsOf (" id:".toList ++ (encodeText id ++ writtenEntries es).toList) =
      ("id", id) :: es := by
    rw [← fieldsOf_writtenEntries hall, writtenEntries_cons, written]
    simp
  rw [← String.ofList_toList (s := "// widget:" ++ _), hchars, ofLine?_marker hkind,
    dropBlankEnd_writtenEntries, hfields, String.ofList_toList]

theorem ofLine?_encode (hkind : IsKey w.kind.toList)
    (hkeys : ∀ e ∈ entries w props aliases, IsKey e.1.toList ∧ '\t' ∉ e.2.toList) :
    Marker.ofLine? (Region.scanned (encode w props aliases)) =
      some ⟨w.kind, Table.ofList (entries w props aliases)⟩ := by
  have hclean : Region.IsClean (encode w props aliases) := by
    rw [encode_eq]
    exact .append (by decide) (.append (isClean_of_isKey hkind) (isClean_writtenEntries hkeys))
  have hhead : entries w props aliases =
      ("id", w.id) :: ((headEntries w).tail ++ propEntries props aliases) := rfl
  rw [Region.scanned_eq hclean, encode_eq]
  rw [hhead] at hkeys ⊢
  exact ofLine?_written hkind w.id fun e he => (hkeys e (List.mem_cons_of_mem _ he)).1

/-! ## Reserved keys -/

theorem lookup_entryIf (key name : String) (value : Option String) :
    (entryIf name value).lookup key = if key = name then value else none := by
  cases value with
  | none => simp [entryIf]
  | some v =>
    by_cases h : key = name
    · simp [entryIf, h]
    · have hne : (key == name) = false := by simpa using h
      simp [entryIf, h, List.lookup_cons, hne]

theorem keys_entryIf (key : String) (value : Option String) :
    ((entryIf key value).map Prod.fst).Sublist [key] := by
  cases value with
  | none => exact List.nil_sublist _
  | some v => exact List.Sublist.refl _

theorem keys_conditionEntries (c : Condition) :
    ((conditionEntries c).map Prod.fst).Sublist
      ["cond_ent", "cond_op", "cond_state", "cond_min", "cond_max"] := by
  unfold conditionEntries
  cases c.entity? with
  | none => exact List.nil_sublist _
  | some entity =>
    rw [List.map_cons, List.map_append, List.map_append, List.map_append]
    exact ((((keys_entryIf _ _).append (keys_entryIf _ _)).append (keys_entryIf _ _)).append
      (keys_entryIf _ _)).cons_cons "cond_ent"

/-- The keys of a widget itself, each at most once. -/
def headKeys : List String :=
  ["id", "type", "x", "y", "w", "h", "title", "ent", "ent2", "cond_ent", "cond_op", "cond_state",
    "cond_min", "cond_max"]

theorem keys_headEntries (w : Widget) : ((headEntries w).map Prod.fst).Sublist headKeys := by
  simp only [headEntries, List.map_append]
  exact ((((List.Sublist.refl _).append (keys_entryIf _ _)).append (keys_entryIf _ _)).append
    (keys_entryIf _ _)).append (keys_conditionEntries _)

theorem nodup_headEntries (w : Widget) : ((headEntries w).map Prod.fst).Nodup :=
  (by decide : headKeys.Nodup).sublist (keys_headEntries w)

/-- A bag of properties that a marker brings back: each of them is written, under a key of its own, as
something that is read as its value. -/
structure Restores (aliases : Aliases) (defaults : Bag) (kind : String) (bag : Bag) : Prop where
  sorted : Table.Sorted bag
  value : ∀ e ∈ bag, ∃ raw, textOf? e.2 = some raw ∧
    decodeValue? raw (Table.find? defaults e.1) = some e.2
  key : ∀ e ∈ bag, aliases.propertyOf (aliases.keyOf e.1) = e.1 ∧ aliases.keyOf e.1 ∉ reservedKeys
  kind : ∀ e ∈ bag, aliases.keyOf e.1 = "type" → textOf? e.2 ≠ some kind

section restored

variable {defaults bag : Bag}

theorem mem_propEntries {e : String × String} :
    e ∈ propEntries bag aliases ↔ ∃ prop ∈ bag, aliases.keyOf prop.1 = e.1 ∧ textOf? prop.2 = some e.2 := by
  simp only [propEntries, List.mem_flatMap]
  refine exists_congr fun prop => and_congr_right fun _ => ?_
  unfold propEntry
  cases h : textOf? prop.2 with
  | none => simp [entryIf]
  | some raw =>
    simp only [entryIf, List.mem_singleton, Option.some.injEq]
    exact ⟨fun he => he ▸ ⟨rfl, rfl⟩, fun he => Prod.ext he.1.symm he.2.symm⟩

theorem Restores.nodup_propEntries (h : Restores aliases defaults w.kind bag) :
    ((propEntries bag aliases).map Prod.fst).Nodup := by
  have hkeys : ∀ e ∈ bag, (propEntry aliases e).map Prod.fst = [aliases.keyOf e.1] := by
    intro e he
    obtain ⟨raw, hraw, -⟩ := h.value e he
    rw [propEntry, hraw]
    rfl
  have hmap : (propEntries bag aliases).map Prod.fst = bag.map fun e => aliases.keyOf e.1 := by
    rw [propEntries, List.map_flatMap, List.flatMap_congr hkeys, ← List.map_eq_flatMap]
  have hinjective : ∀ e ∈ bag, ∀ f ∈ bag, aliases.keyOf e.1 = aliases.keyOf f.1 → e = f := by
    intro e he f hf hkey
    have hname : e.1 = f.1 := by rw [← (h.key e he).1, hkey, (h.key f hf).1]
    have hfirst := Table.find?_of_mem h.sorted he
    have hsecond := Table.find?_of_mem h.sorted hf
    rw [hname, hsecond] at hfirst
    exact Prod.ext hname (Option.some.inj hfirst).symm
  rw [hmap]
  exact List.Nodup.map_on hinjective (List.Nodup.of_map _ (Table.nodup_keys h.sorted))

/-- Under a reserved key stands what the widget wrote there. -/
theorem Restores.get?_reserved (h : Restores aliases defaults w.kind bag) {key : String}
    (hkey : key ∈ reservedKeys) :
    get? ⟨w.kind, Table.ofList (entries w bag aliases)⟩ key = (headEntries w).lookup key := by
  have hnone : (propEntries bag aliases).reverse.lookup key = none := by
    refine List.lookup_eq_none_iff.mpr fun e he => ?_
    obtain ⟨prop, hprop, hname, -⟩ := mem_propEntries.mp (List.mem_reverse.mp he)
    have hne : key ≠ e.1 := fun heq => (h.key prop hprop).2 (hname ▸ heq ▸ hkey)
    simpa using hne
  rw [get?, Table.find?_ofList, entries, List.reverse_append, List.lookup_append, hnone, Option.none_or,
    Table.lookup_reverse (nodup_headEntries w)]

theorem Restores.mem_propFields (h : Restores aliases defaults w.kind bag) {e : String × String} :
    e ∈ propFields ⟨w.kind, Table.ofList (entries w bag aliases)⟩ ↔ e ∈ propEntries bag aliases := by
  have hhead : ∀ e ∈ headEntries w, e.1 ∈ reservedKeys ∨ e = ("type", w.kind) := by
    intro e he
    have hkey : e.1 ∈ headKeys := (keys_headEntries w).subset (List.mem_map.mpr ⟨e, he, rfl⟩)
    by_cases htype : e.1 = "type"
    · have hlookup := Table.lookup_of_mem (nodup_headEntries w) he
      rw [htype] at hlookup
      have hkind : (headEntries w).lookup "type" = some w.kind := rfl
      exact .inr (Prod.ext htype (Option.some.inj (hlookup.symm.trans hkind)))
    · have hothers : ∀ key ∈ headKeys, key ≠ "type" → key ∈ reservedKeys := by decide
      exact .inl (hothers e.1 hkey htype)
  simp only [propFields, List.mem_filter, Bool.and_eq_true, Bool.not_eq_true', List.contains_eq_mem,
    decide_eq_false_iff_not, Bool.and_eq_false_iff, beq_eq_false_iff_ne]
  constructor
  · rintro ⟨hmem, hfree, hkind⟩
    rcases List.mem_append.mp (Table.mem_ofList hmem) with he | he
    · rcases hhead e he with hreserved | rfl
      · exact absurd hreserved hfree
      · exact absurd rfl (hkind.resolve_left (fun hne => hne rfl))
    · exact he
  · intro he
    obtain ⟨prop, hprop, hname, htext⟩ := mem_propEntries.mp he
    have hfree : e.1 ∉ reservedKeys := hname ▸ (h.key prop hprop).2
    refine ⟨Table.mem_of_find? ?_, hfree, ?_⟩
    · have hlookup := Table.lookup_of_mem h.nodup_propEntries he
      rw [Table.find?_ofList, entries, List.reverse_append, List.lookup_append,
        Table.lookup_reverse h.nodup_propEntries, hlookup, Option.some_or]
    · by_cases htype : e.1 = "type"
      · refine .inr fun hkind => h.kind prop hprop (hname.trans htype) ?_
        rw [htext, hkind]
      · exact .inl htype

end restored

/-! ## The widget itself -/

theorem lookup_conditionEntries (c : Condition) {key : String}
    (h : key ∉ ["cond_ent", "cond_op", "cond_state", "cond_min", "cond_max"]) :
    (conditionEntries c).lookup key = none := by
  refine List.lookup_eq_none_iff.mpr fun e he => ?_
  have hmem := (keys_conditionEntries c).subset (List.mem_map.mpr ⟨e, he, rfl⟩)
  have hne : key ≠ e.1 := fun heq => h (heq ▸ hmem)
  simpa using hne

theorem lookup_title (w : Widget) : (headEntries w).lookup "title" = notBlank w.title := by
  simp [headEntries, List.lookup_append, lookup_entryIf, List.lookup_cons, lookup_conditionEntries]

theorem lookup_entity (w : Widget) : (headEntries w).lookup "ent" = notBlank w.entityId := by
  simp [headEntries, List.lookup_append, lookup_entryIf, List.lookup_cons, lookup_conditionEntries]

theorem lookup_secondEntity (w : Widget) :
    (headEntries w).lookup "ent2" = notBlank w.secondEntityId := by
  simp [headEntries, List.lookup_append, lookup_entryIf, List.lookup_cons, lookup_conditionEntries]

theorem lookup_unwritten (w : Widget) {key : String} (h : key ∉ headKeys) :
    (headEntries w).lookup key = none := by
  refine List.lookup_eq_none_iff.mpr fun e he => ?_
  have hmem := (keys_headEntries w).subset (List.mem_map.mpr ⟨e, he, rfl⟩)
  have hne : key ≠ e.1 := fun heq => h (heq ▸ hmem)
  simpa using hne

theorem lookup_condition (w : Widget) {key : String} (h : key ∉ headKeys.take 9) :
    (headEntries w).lookup key = (conditionEntries w.condition).lookup key := by
  simp only [headKeys, List.take, List.mem_cons, List.not_mem_nil, or_false, not_or] at h
  obtain ⟨hid, htype, hx, hy, hw, hh, htitle, hentity, hsecond⟩ := h
  have hne : ∀ {k : String}, key ≠ k → (key == k) = false := fun hk => by simpa using hk
  simp only [headEntries, List.lookup_append, List.lookup_cons, hne hid, hne htype, hne hx, hne hy,
    hne hw, hne hh, lookup_entryIf, htitle, hentity, hsecond, if_false, List.lookup_nil,
    Option.none_or]

end Dashboard.Marker

namespace Dashboard

open Text Json Number

/-- What a marker keeps of a condition: nothing of one that is not active, otherwise the trimmed entity
and no blank operator. -/
def Condition.kept (c : Condition) : Condition :=
  match c.entity? with
  | none => {}
  | some entity => { c with entityId := some entity, operator := Marker.notBlank c.operator }

/-- The bounds of a condition that has any are finite. -/
structure Condition.IsFinite (c : Condition) : Prop where
  lowest : ∀ x, c.lowest = some x → x.isFinite = true
  highest : ∀ x, c.highest = some x → x.isFinite = true

/-- A widget that was brought back with a bag of properties. -/
structure Widget.IsRestored (w : Widget) (bag : Bag) (back : Widget) : Prop where
  id : back.id = w.id
  kind : back.kind = w.kind
  rect : back.rect = w.rect
  title : back.title = Marker.notBlank w.title
  entityId : back.entityId = Marker.notBlank w.entityId
  secondEntityId : back.secondEntityId = Marker.notBlank w.secondEntityId
  condition : back.condition = w.condition.kept
  props : back.props = bag

theorem Widget.IsRestored.withProps {w back : Widget} (h : w.IsRestored [] back) (bag : Bag) :
    w.IsRestored bag { back with props := bag } :=
  ⟨h.id, h.kind, h.rect, h.title, h.entityId, h.secondEntityId, h.condition, rfl⟩

namespace Marker

variable {w : Widget} {aliases : Aliases} {defaults bag : Bag}

theorem bound_read {key : String} {m : Marker} {bound : Option Binary64}
    (hfinite : ∀ x, bound = some x → x.isFinite = true)
    (hget : m.get? key = (bound.filter Binary64.isFinite).map Binary64.documentText) :
    m.real? key = bound := by
  rw [real?, hget]
  cases bound with
  | none => rfl
  | some x =>
    have hx := hfinite x rfl
    rw [Option.filter_some, if_pos hx, Option.map_some, Option.bind_some, trimChars_documentText hx,
      Binary64.read?_documentText hx]

theorem Restores.condition (h : Restores aliases defaults w.kind bag) (hfinite : w.condition.IsFinite) :
    condition ⟨w.kind, Table.ofList (entries w bag aliases)⟩ = w.condition.kept := by
  have hget : ∀ key ∈ ["cond_ent", "cond_op", "cond_state", "cond_min", "cond_max"],
      get? ⟨w.kind, Table.ofList (entries w bag aliases)⟩ key =
        (conditionEntries w.condition).lookup key := by
    intro key hkey
    have hreserved : ∀ key ∈ ["cond_ent", "cond_op", "cond_state", "cond_min", "cond_max"],
        key ∈ reservedKeys ∧ key ∉ headKeys.take 9 := by decide
    rw [h.get?_reserved (hreserved key hkey).1, lookup_condition w (hreserved key hkey).2]
  unfold Marker.condition Condition.kept
  simp only [hget "cond_ent" (by decide), hget "cond_op" (by decide), hget "cond_state" (by decide)]
  cases hentity : w.condition.entity? with
  | none =>
    have hnone : ∀ key, (conditionEntries w.condition).lookup key = none := fun key => by
      simp [conditionEntries, hentity]
    have hreal : ∀ key ∈ ["cond_ent", "cond_op", "cond_state", "cond_min", "cond_max"],
        real? ⟨w.kind, Table.ofList (entries w bag aliases)⟩ key = none := fun key hkey => by
      rw [real?, hget key hkey, hnone]
      rfl
    simp only [hnone, hreal "cond_min" (by decide), hreal "cond_max" (by decide)]
  | some entity =>
    have hlow := bound_read hfinite.lowest ((hget "cond_min" (by decide)).trans (by
      simp [conditionEntries, hentity, boundEntry, List.lookup_append, lookup_entryIf, List.lookup_cons]))
    have hhigh := bound_read hfinite.highest ((hget "cond_max" (by decide)).trans (by
      simp [conditionEntries, hentity, boundEntry, List.lookup_append, lookup_entryIf, List.lookup_cons]))
    rw [hlow, hhigh]
    simp [conditionEntries, hentity, boundEntry, List.lookup_append, lookup_entryIf, List.lookup_cons]

theorem rect_frame (m : Marker) (id : String) :
    (m.frame id).rect = ⟨Pixel.ofBinary64 ((m.real? "x").getD (.ofNat 0)),
      Pixel.ofBinary64 ((m.real? "y").getD (.ofNat 0)),
      Pixel.ofBinary64 ((m.real? "w").getD (.ofNat 100)),
      Pixel.ofBinary64 ((m.real? "h").getD (.ofNat 30))⟩ := rfl

theorem title_frame (m : Marker) (id : String) :
    (m.frame id).title = m.getFirst? ["title", "label"] := rfl

theorem entityId_frame (m : Marker) (id : String) :
    (m.frame id).entityId = m.getFirst? ["ent", "entity"] := rfl

theorem secondEntityId_frame (m : Marker) (id : String) :
    (m.frame id).secondEntityId = m.getFirst? ["ent2", "entity_2"] := rfl

theorem Restores.frame (h : Restores aliases defaults w.kind bag) (hfinite : w.condition.IsFinite) :
    w.IsRestored [] (frame ⟨w.kind, Table.ofList (entries w bag aliases)⟩ w.id) := by
  have hpixel : ∀ {key : String} {p : Pixel} {default : Binary64}, key ∈ reservedKeys →
      (headEntries w).lookup key = some (intText p.toInt) →
      Pixel.ofBinary64 ((real? ⟨w.kind, Table.ofList (entries w bag aliases)⟩ key).getD default) = p := by
    intro key p default hkey hlookup
    obtain ⟨x, hx, hp⟩ := Pixel.exists_read?_intText p
    rw [real?, h.get?_reserved hkey, hlookup, Option.bind_some, trimChars_intText, hx]
    exact hp
  have hfirst : ∀ {key other : String} {value : Option String}, key ∈ reservedKeys →
      other ∈ reservedKeys → other ∉ headKeys → (headEntries w).lookup key = value →
      getFirst? ⟨w.kind, Table.ofList (entries w bag aliases)⟩ [key, other] = value := by
    intro key other value hkey hother hunwritten hlookup
    simp only [getFirst?, List.findSome?_cons, List.findSome?_nil, h.get?_reserved hkey,
      h.get?_reserved hother, lookup_unwritten w hunwritten, hlookup]
    cases value <;> rfl
  have hx : (headEntries w).lookup "x" = some (intText w.rect.x.toInt) := rfl
  have hy : (headEntries w).lookup "y" = some (intText w.rect.y.toInt) := rfl
  have hw : (headEntries w).lookup "w" = some (intText w.rect.width.toInt) := rfl
  have hh : (headEntries w).lookup "h" = some (intText w.rect.height.toInt) := rfl
  constructor
  case id => rfl
  case kind => rfl
  case rect =>
    rw [rect_frame, hpixel (by decide) hx, hpixel (by decide) hy, hpixel (by decide) hw,
      hpixel (by decide) hh]
  case title =>
    rw [title_frame, hfirst (by decide) (by decide) (by decide) (lookup_title w)]
  case entityId =>
    rw [entityId_frame, hfirst (by decide) (by decide) (by decide) (lookup_entity w)]
  case secondEntityId =>
    rw [secondEntityId_frame, hfirst (by decide) (by decide) (by decide) (lookup_secondEntity w)]
  case condition => exact h.condition hfinite
  case props => rfl

/-! ## Its properties -/

theorem addProps_ok {kind? : Option WidgetKind} {f : String × String → String × Json} (line : Nat)
    {fields : List (String × String)} (h : ∀ e ∈ fields, readProp kind? e.1 e.2 = .ok (f e))
    (w : Widget) : addProps kind? line w fields =
      ({ w with props := (fields.map f).foldl (fun t e => Table.put e.1 e.2 t) w.props }, []) := by
  induction fields generalizing w with
  | nil => rfl
  | cons e fields ih =>
    obtain ⟨key, raw⟩ := e
    have hread := h (key, raw) List.mem_cons_self
    rw [addProps, hread]
    exact ih (fun e he => h e (List.mem_cons_of_mem _ he)) _

variable {k : WidgetKind}

theorem Restores.readProp (h : Restores k.aliases k.descriptor.defaults w.kind bag)
    {e : String × String}
    (he : e ∈ propFields ⟨w.kind, Table.ofList (entries w bag k.aliases)⟩) :
    ∃ prop ∈ bag, k.aliases.propertyOf e.1 = prop.1 ∧ readProp (some k) e.1 e.2 = .ok prop := by
  obtain ⟨prop, hprop, hkey, htext⟩ := mem_propEntries.mp (h.mem_propFields.mp he)
  obtain ⟨raw, hraw, hvalue⟩ := h.value prop hprop
  obtain rfl := Option.some.inj (hraw.symm.trans htext)
  have hname : k.aliases.propertyOf e.1 = prop.1 := by rw [← hkey, (h.key prop hprop).1]
  refine ⟨prop, hprop, hname, ?_⟩
  simp only [Marker.readProp, hname, hvalue]

/-- The properties are brought back as they were, and nothing is left over. -/
theorem Restores.addProps (h : Restores k.aliases k.descriptor.defaults w.kind bag) (line : Nat)
    {back : Widget} (hback : back.props = []) :
    addProps (some k) line back (propFields ⟨w.kind, Table.ofList (entries w bag k.aliases)⟩) =
      ({ back with props := bag }, []) := by
  let f : String × String → String × Json := fun e =>
    (k.aliases.propertyOf e.1, (Table.find? bag (k.aliases.propertyOf e.1)).getD .null)
  have hf : ∀ prop ∈ bag, ∀ e : String × String, k.aliases.propertyOf e.1 = prop.1 → f e = prop := by
    intro prop hprop e hname
    change (k.aliases.propertyOf e.1, (Table.find? bag (k.aliases.propertyOf e.1)).getD .null) = prop
    rw [hname, Table.find?_of_mem h.sorted hprop]
    rfl
  have hread : ∀ e ∈ propFields ⟨w.kind, Table.ofList (entries w bag k.aliases)⟩,
      Marker.readProp (some k) e.1 e.2 = .ok (f e) := by
    intro e he
    obtain ⟨prop, hprop, hname, hok⟩ := h.readProp he
    rw [hok, hf prop hprop e hname]
  have hmem : ∀ prop, prop ∈ (propFields ⟨w.kind, Table.ofList (entries w bag k.aliases)⟩).map f ↔
      prop ∈ bag := by
    intro prop
    rw [List.mem_map]
    constructor
    · rintro ⟨e, he, rfl⟩
      obtain ⟨prop, hprop, hname, -⟩ := h.readProp he
      exact (hf prop hprop e hname).symm ▸ hprop
    · intro hprop
      obtain ⟨raw, hraw, -⟩ := h.value prop hprop
      refine ⟨(k.aliases.keyOf prop.1, raw), h.mem_propFields.mpr (mem_propEntries.mpr
        ⟨prop, hprop, rfl, hraw⟩), hf prop hprop _ (h.key prop hprop).1⟩
  rw [addProps_ok line hread, hback]
  exact congrArg (fun bag => ({ back with props := bag }, [])) (Table.ofList_eq_of_mem_iff h.sorted hmem)

/-- Whatever becomes of the id, a written marker brings the properties back. -/
theorem Restores.props_widget (h : Restores k.aliases k.descriptor.defaults w.kind bag)
    (ordinal line : Nat) :
    (widget ⟨w.kind, Table.ofList (entries w bag k.aliases)⟩ (some k) ordinal line).1.props = bag := by
  simp only [Marker.widget]
  rw [h.addProps line rfl]

/-- A written marker brings its widget back, without a notice. -/
theorem Restores.widget (h : Restores k.aliases k.descriptor.defaults w.kind bag)
    (hid : nonBlank? w.id = some w.id) (hfinite : w.condition.IsFinite) (ordinal line : Nat) :
    ∃ back, widget ⟨w.kind, Table.ofList (entries w bag k.aliases)⟩ (some k) ordinal line = (back, []) ∧
      w.IsRestored bag back := by
  have hframe := h.frame hfinite
  have hnamed : (get? ⟨w.kind, Table.ofList (entries w bag k.aliases)⟩ "id").bind nonBlank? =
      some w.id := by
    have hlookup : (headEntries w).lookup "id" = some w.id := rfl
    rw [h.get?_reserved (by decide), hlookup, Option.bind_some, hid]
  refine ⟨_, ?_, hframe.withProps bag⟩
  unfold Marker.widget idOr
  simp only [hnamed, h.addProps line hframe.props, Option.isSome_some, if_true, List.nil_append]

end Marker

end Dashboard
