import Dashboard.Compile.Layout
import Dashboard.Proofs.Compile.Registered
import Dashboard.Proofs.Document.Blocks
import Dashboard.Proofs.Rebuild.Sections
/-!
# The blocks of the built-in kinds

Every built-in kind that draws writes a block for a widget: the marker of the properties that it read,
and drawing code after it. The arguments of its calls are numbers, names of fonts, colors and
components, and quoted texts, so no text of the widget leaves its line.
-/

namespace Dashboard

open Text Emission

/-- The properties that are registered as they are. -/
def rawKeys : List String := ["font_family", "duration"]

/-- The properties that are registered as they are satisfy a predicate. -/
def HasRaw (T : String → Prop) (bag : Bag) : Prop :=
  ∀ key ∈ rawKeys, ∀ text, Table.find? bag key = some (.string text) → T text

/-- The lines of a widget: a block with the marker of its typed properties, whose keys are key
words. -/
def WidgetKind.Writes (k : WidgetKind) (w : Widget) (ls : List String) : Prop :=
  ∃ bag, k.typed w = .ok bag ∧ Block.Follows (Marker.encode w bag k.aliases) ls ∧
    ∀ e ∈ Marker.propEntries bag k.aliases, Marker.IsKey e.1.toList

/-- A kind whose drawing code consists of blocks and that registers no text but the raw ones. -/
def WidgetKind.WritesBlocks (k : WidgetKind) : Prop :=
  ∀ (T : String → Prop) (s : Setting) (w : Widget), OneLine s.options.timeId →
    (∀ bag, k.typed w = .ok bag → HasRaw T bag) →
    Yields (Resources.IsOf T) (fun _ => True) (k.collect s w) ∧
      Yields (Resources.IsOf T) (k.Writes w) (k.procedural s w)

namespace Schema

variable {P : Type} {s : Schema P}

theorem read_of_readForExport {w : Widget} {p : P} (h : s.readForExport w = .ok p) :
    s.read w = .ok p := by
  unfold readForExport at h
  cases hr : s.read w with
  | ok q =>
    rw [hr] at h
    cases h
    rfl
  | error e =>
    rw [hr] at h
    cases h

theorem readForExport_eq {w : Widget} {p : P} (h : s.read w = .ok p) : s.readForExport w = .ok p := by
  rw [readForExport, h]
  rfl

/-- The properties of a schema are written under key words. -/
def HasKeys (s : Schema P) (aliases : Aliases) : Prop :=
  ∀ p, ∀ field ∈ s.fields p, Marker.IsKey (aliases.keyOf field.1).toList

theorem HasKeys.propEntries {aliases : Aliases} (h : s.HasKeys aliases) (p : P) :
    ∀ e ∈ Marker.propEntries (s.bag p) aliases, Marker.IsKey e.1.toList := by
  intro e he
  obtain ⟨prop, hprop, he⟩ := List.mem_flatMap.mp he
  exact Marker.isKey_entryIf (h p prop (Table.mem_ofList hprop)) _ e he

end Schema

/-! ## Arguments -/

namespace Kind

theorem oneLine_pixelText (p : Pixel) : OneLine (pixelText p) := oneLine_intText _

theorem oneLine_countText (n : UInt32) : OneLine (countText n) := oneLine_natText _

theorem oneLine_componentRef {id : String} (h : OneLine id) : OneLine (componentRef id) :=
  ((by decide : OneLine "id(").append h).append (by decide)

theorem oneLine_textAlign (a : Alignment) : OneLine a.textAlign := by
  obtain ⟨h, v⟩ := a
  cases h <;> cases v <;> decide

theorem oneLine_stateArgument (entity : String) (isText : Bool) :
    OneLine (stateArgument ⟨entity, Entity.componentId entity, isText⟩) := by
  refine (oneLine_componentRef (oneLine_componentId entity)).append ?_
  split <;> decide

theorem entityRead?_eq {w : Widget} {read : EntityRead} (h : entityRead? w = some read) :
    ∃ entity, read = ⟨entity, Entity.componentId entity, Entity.isText entity⟩ := by
  obtain ⟨raw, -, hread⟩ := Option.bind_eq_some_iff.mp h
  obtain ⟨entity, -, rfl⟩ := Option.map_eq_some_iff.mp hread
  exact ⟨entity, rfl⟩

variable {T : String → Prop}

theorem yields_schema {P : Type} (schema : Schema P) (w : Widget) :
    Yields (Resources.IsOf T) (fun p => schema.read w = .ok p)
      (Emission.ofExcept (schema.readForExport w)) :=
  .ofExcept fun _ hp => Schema.read_of_readForExport hp

theorem yields_color (s : Setting) (value : String) (role : ColorRole) :
    Yields (Resources.IsOf T) OneLine (Emission.register (Resources.colorConstant s value role)) :=
  .register fun _ hr => hr.colorConstant s value role

theorem yields_font {f : FontRequest} (h : Resources.IsFamily T f.family) :
    Yields (Resources.IsOf T) OneLine (Emission.register (Resources.addFont f)) :=
  .register fun _ hr => ⟨ProceduralDocument.oneLine_fontId f, hr.addFont h⟩

end Kind

end Dashboard
