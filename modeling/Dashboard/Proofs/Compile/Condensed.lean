import Dashboard.Proofs.Compile.Alike
import Dashboard.Proofs.Json.Equality
/-!
# Properties that may be left out

A property that is null, that has its default value or that the kind has no default for says nothing, unless it is the
entity of the widget. A layout without all these properties has the same report.
-/

namespace Dashboard

namespace Bag

variable {defaults props : Bag}

/-- The properties that say something to a kind with these defaults. -/
def condensed (defaults props : Bag) : Bag :=
  props.filter fun e => e.2.isNull = false ∧ Table.find? defaults e.1 ≠ some e.2 ∧
    (e.1 ∈ Table.keys defaults ∨ e.1 = "entity_id")

theorem nodup_keys_condensed (h : (Table.keys props).Nodup) : (Table.keys (condensed defaults props)).Nodup :=
  h.sublist (List.filter_sublist.map Prod.fst)

theorem find?_overlay_condensed (h : (Table.keys props).Nodup) {name : String} (hname : name ∈ Table.keys defaults) :
    Table.find? (overlay defaults (condensed defaults props)) name = Table.find? (overlay defaults props) name := by
  rw [find?_overlay (nodup_keys_condensed h), find?_overlay h, condensed, Table.find?_filter h]
  cases Table.find? props name with
  | none => rfl
  | some v =>
    by_cases hnull : v.isNull = true
    · simp [Option.filter, hnull]
    · by_cases hdefault : Table.find? defaults name = some v
      · simp [Option.filter, hnull, hdefault]
      · simp [Option.filter, hnull, hdefault, hname]

theorem string?_condensed (h : (Table.keys props).Nodup) (hfree : "entity_id" ∉ Table.keys defaults) :
    (Table.find? (condensed defaults props) "entity_id").bind Json.string? =
      (Table.find? props "entity_id").bind Json.string? := by
  have hnone : Table.find? defaults "entity_id" = none := Table.find?_eq_none hfree
  rw [condensed, Table.find?_filter h]
  cases Table.find? props "entity_id" with
  | none => rfl
  | some v => cases v <;> simp [Option.filter, Json.isNull, Json.string?, hnone]

end Bag

/-- The defaults of a kind. An unknown kind has none. -/
def Registry.defaults (g : Registry) (kind : String) : Bag :=
  match g.kind? kind with
  | some k => k.descriptor.defaults
  | none => []

def Widget.condensed (g : Registry) (w : Widget) : Widget :=
  { w with props := Bag.condensed (g.defaults w.kind) w.props }

def Page.condensed (g : Registry) (p : Page) : Page := { p with widgets := p.widgets.map (Widget.condensed g) }

/-- A layout whose widgets have only the properties that say something to their kinds. -/
def Layout.condensed (g : Registry) (l : Layout) : Layout := { l with pages := l.pages.map (Page.condensed g) }

theorem Kind.entityId_not_mem_defaults : ∀ k ∈ builtin, "entity_id" ∉ Table.keys k.descriptor.defaults := by
  decide

namespace Widget

variable {w : Widget} {g : Registry}

theorem resembles_condensed (h : (Table.keys w.props).Nodup) (hfree : "entity_id" ∉ Table.keys (g.defaults w.kind)) :
    w.Resembles (w.condensed g) where
  id := rfl
  kind := rfl
  rect := rfl
  title := rfl
  entity := by
    unfold entity? condensed
    rw [Bag.string?_condensed h hfree]
  secondEntity := rfl
  conditionEntity := rfl
  guard := rfl
  marker _ _ := rfl

theorem emitsAs_condensed (h : (Table.keys w.props).Nodup) (s : Setting) :
    w.EmitsAs .builtin s (w.condensed .builtin) := by
  have hfree : "entity_id" ∉ Table.keys (Registry.builtin.defaults w.kind) := by
    unfold Registry.defaults
    split
    · next k hk => exact Kind.entityId_not_mem_defaults k (Registry.kind?_ofKinds hk).1
    · exact List.not_mem_nil
  have hresembles := resembles_condensed h hfree
  refine ⟨hresembles, fun k hk =>
    (Kind.drawsAlike_of_builtin (Registry.kind?_ofKinds hk).1 hresembles ?_).emit s⟩
  intro P schema hschema hdefaults
  have hkind : Registry.builtin.defaults w.kind = schema.defaults := by
    rw [hdefaults, Registry.defaults, hk]
  refine hschema.read_congr rfl fun name hname => ?_
  rw [condensed, hkind]
  exact Bag.find?_overlay_condensed h hname

end Widget

namespace Registry

/-- Leaving out null values, defaults and properties that are unknown to the kind of the widget does not change a
report, whatever the target and the options are. The bags of properties are tables, with each key once. -/
theorem compile_condensed {l : Layout} (h : ∀ w ∈ l.widgets, (Table.keys w.props).Nodup) (o : Options) (t : Target) :
    compile .builtin o (l.condensed .builtin) t = compile .builtin o l t := by
  refine compile_congr isWritten_builtin rfl (List.forall₂_map_right_iff.mpr (List.forall₂_same.mpr fun p hp => ?_))
  refine ⟨rfl, rfl, List.forall₂_map_right_iff.mpr (List.forall₂_same.mpr fun w hw => ?_)⟩
  exact Widget.emitsAs_condensed (h w (List.mem_flatMap.mpr ⟨p, hp, hw⟩)) _

/-- A text with a null, a default, a misspelt property and an entity among its properties. Only its entity and its
own text are left. -/
theorem compile_condensed_worded :
    let worded : Widget := { Widget.make "w_1" "text" with
      props := [("colour", .string "red"), ("entity_id", .string "sensor.hall"), ("font_size", .ofNat 20),
        ("italic", .null), ("text", .string "Hall")] }
    let l : Layout := { pages := [{ Page.make 0 with widgets := [worded] }] }
    (∀ w ∈ l.widgets, (Table.keys w.props).Nodup) ∧
      (worded.condensed .builtin).props = [("entity_id", .string "sensor.hall"), ("text", .string "Hall")] ∧
      ∀ o t, compile .builtin o (l.condensed .builtin) t = compile .builtin o l t := by
  intro worded l
  have hkeys : ∀ w ∈ l.widgets, (Table.keys w.props).Nodup := by decide
  exact ⟨hkeys, by decide, compile_condensed hkeys⟩

end Registry

end Dashboard
