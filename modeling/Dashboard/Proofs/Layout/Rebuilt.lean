import Dashboard.Proofs.Compile.Composition
import Dashboard.Proofs.Json.Decimals
import Dashboard.Proofs.Layout.Loaded
import Dashboard.Proofs.Rebuild.Preserved
/-!
# Rebuilt layouts are in stored form

A rebuilt widget gets its properties one by one, from the fields of a marker or from a drawing. Where no
default of a kind is a list or an object, every such value is a scalar, and a whole number among them has
at most 64 bits. With this, what a program builds from any text can be saved and loaded again, as long as
its floating point numbers have numerals that are read as these numbers.
-/

namespace Dashboard

open Json Number Text

namespace Json

def isContainer : Json → Bool
  | .array _ | .object _ => true
  | _ => false

variable {v : Json}

theorem fits_of_isContainer (h : v.isContainer = false) (room : Nat) : v.Fits room := by
  cases v with
  | array vs => exact nomatch h
  | object fs => exact nomatch h
  | null => exact .null room
  | bool b => exact .bool room b
  | number n => exact .number room n
  | string s => exact .string room s

/-- A value that a bag can take at any depth. -/
structure IsStorable (v : Json) : Prop where
  scalar : v.isContainer = false
  inRange : v.AllNumbers InRange

theorem isStorable_string (s : String) : IsStorable (.string s) := ⟨rfl, .string s⟩

theorem isStorable_bool (b : Bool) : IsStorable (.bool b) := ⟨rfl, .bool b⟩

theorem isStorable_number {n : Numeral} (h : InRange n) : IsStorable (.number n) := ⟨rfl, .number h⟩

end Json

namespace Bag.IsStored

variable {room : Nat} {b : Bag}

theorem put (h : b.IsStored room) (key : String) {v : Json} (hv : v.IsStorable) :
    Bag.IsStored room (Table.put key v b) where
  sorted := Table.sorted_put key v h.sorted
  fits := fun e he => by
    rcases Table.mem_put he with rfl | he
    · exact fits_of_isContainer hv.scalar room
    · exact h.fits e he
  inRange := fun e he => by
    rcases Table.mem_put he with rfl | he
    · exact hv.inRange
    · exact h.inRange e he

end Bag.IsStored

namespace Bag

variable {room : Nat}

theorem isStored_ofStorables {fs : List (String × Json)} (h : ∀ e ∈ fs, e.2.IsStorable) :
    Bag.IsStored room (Table.ofList fs) :=
  isStored_ofList fun e he => ⟨fits_of_isContainer (h e he).scalar room, (h e he).inRange⟩

end Bag

/-! ## Values of markers -/

namespace Marker

theorem inRange_readInt64? {cs : List Char} {i : Int} (h : readInt64? cs = some i) : InRange (.whole i) := by
  have hbounds := (Option.filter_eq_some_iff.mp h).2
  simp only [Bool.and_eq_true, decide_eq_true_eq] at hbounds
  have hhighest : highestOf 64 ≤ (largestWhole : Int) := by decide
  constructor
  · rintro j ⟨⟩
    exact hbounds.1
  · rintro j ⟨⟩
    omega

theorem inRange_readNumeral? {raw : String} {n : Numeral} (h : readNumeral? raw = some n) : InRange n := by
  unfold readNumeral? at h
  simp only at h
  split at h
  · next i hi =>
    cases h
    exact inRange_readInt64? hi
  · obtain ⟨x, -, rfl⟩ := Option.map_eq_some_iff.mp h
    exact ⟨fun _ hi => (nomatch hi), fun _ hi => nomatch hi⟩

theorem isStorable_inferValue (raw : String) : (inferValue raw).IsStorable := by
  unfold inferValue
  split
  · exact isStorable_bool true
  · split
    · exact isStorable_bool false
    · split
      · next n hn => exact isStorable_number (inRange_readNumeral? hn)
      · exact isStorable_string raw

theorem isStorable_decodeValue? {raw : String} {template : Option Json} {v : Json}
    (ht : ∀ t ∈ template, t.isContainer = false) (h : decodeValue? raw template = some v) :
    v.IsStorable := by
  unfold decodeValue? at h
  split at h
  · obtain ⟨b, -, rfl⟩ := Option.map_eq_some_iff.mp h
    exact isStorable_bool b
  · obtain ⟨n, hn, rfl⟩ := Option.map_eq_some_iff.mp h
    exact isStorable_number (inRange_readNumeral? hn)
  · cases h
    exact isStorable_string raw
  · exact nomatch ht _ rfl
  · exact nomatch ht _ rfl
  · cases h
    exact isStorable_inferValue raw
  · cases h
    exact isStorable_inferValue raw

end Marker

namespace WidgetKind

/-- A kind without a default that is a list or an object. -/
def HasScalars (k : WidgetKind) : Prop := ∀ e ∈ k.descriptor.defaults, e.2.isContainer = false

theorem hasScalars_of_builtin {k : WidgetKind} (hk : k ∈ Kind.builtin) : k.HasScalars := by
  have hschema : ∀ {P : Type} (s : Schema P), (∀ f ∈ s.fields s.default, f.2.isContainer = false) →
      ∀ e ∈ s.defaults, e.2.isContainer = false := fun s h e he => h e (Table.mem_ofList he)
  simp only [Kind.builtin, List.mem_cons, List.not_mem_nil, or_false] at hk
  rcases hk with rfl | rfl | rfl | rfl | rfl | rfl | rfl | rfl | rfl
  · exact hschema Kind.Clock.schema (by decide)
  · exact hschema Kind.TextBlock.schema (by decide)
  · exact hschema Kind.Rectangle.schema (by decide)
  · exact hschema Kind.Circle.schema (by decide)
  · exact hschema Kind.Line.schema (by decide)
  · exact hschema Kind.Chart.schema (by decide)
  · exact hschema Kind.Label.schema (by decide)
  · exact hschema Kind.Image.schema (by decide)
  · exact hschema Kind.Ellipse.schema (by decide)

end WidgetKind

namespace Marker

variable {kind? : Option WidgetKind} {room : Nat}

theorem isStorable_readProp (hk : ∀ k ∈ kind?, k.HasScalars) {key raw property : String} {v : Json}
    (h : readProp kind? key raw = .ok (property, v)) : v.IsStorable := by
  unfold readProp at h
  split at h
  · cases h
    exact isStorable_inferValue raw
  · next k =>
    simp only at h
    split at h
    · next value hvalue =>
      cases h
      refine isStorable_decodeValue? (fun t ht => ?_) hvalue
      exact hk k rfl _ (Table.mem_of_find? ht)
    · cases h

/-- The properties of a marker keep a bag in stored form. -/
theorem isStored_addProps (hk : ∀ k ∈ kind?, k.HasScalars) (line : Nat) (fields : List (String × String))
    {w : Widget} (hw : w.props.IsStored room) : (addProps kind? line w fields).1.props.IsStored room := by
  induction fields generalizing w with
  | nil => exact hw
  | cons f fields ih =>
    obtain ⟨key, raw⟩ := f
    rw [addProps]
    split
    · next property value hread => exact ih (hw.put property (isStorable_readProp hk hread))
    · exact ih hw

theorem isStored_widget (hk : ∀ k ∈ kind?, k.HasScalars) (m : Marker) (ordinal line : Nat) :
    (m.widget kind? ordinal line).1.props.IsStored room :=
  isStored_addProps (w := m.frame (m.idOr ordinal line).1) hk line m.propFields Bag.isStored_nil

end Marker

theorem Widget.isStored_recover? {line : String} {ordinal room : Nat} {w : Widget}
    (h : Widget.recover? line ordinal = some w) : w.props.IsStored room := by
  obtain ⟨d, -, hd⟩ := Option.bind_eq_some_iff.mp h
  obtain ⟨r, -, rfl⟩ := Option.map_eq_some_iff.mp hd
  have hone : InRange (.whole ((1 : Nat) : Int)) := by
    constructor
    · rintro j ⟨⟩
      decide
    · rintro j ⟨⟩
      decide
  have hshape : ∀ (filled : Bool) (color : String), ∀ e ∈ [("fill", Json.bool filled), ("color", .string color)],
      e.2.IsStorable := fun filled color =>
    List.forall_mem_cons.mpr ⟨isStorable_bool filled, List.forall_mem_singleton.mpr (isStorable_string color)⟩
  cases d with
  | rectangle filled x y width height color => exact Bag.isStored_ofStorables (hshape filled color)
  | circle filled x y radius color => exact Bag.isStored_ofStorables (hshape filled color)
  | line startX startY endX endY color =>
    refine Bag.isStored_ofStorables (List.forall_mem_cons.mpr ⟨isStorable_number hone,
      List.forall_mem_cons.mpr ⟨isStorable_string _, List.forall_mem_singleton.mpr (isStorable_string color)⟩⟩)

/-! ## Rebuilt pages -/

namespace Registry

variable {g : Registry}

theorem keeps_isStored (hg : g.All WidgetKind.HasScalars) (room : Nat) : g.Keeps (Page.IsStored room) := by
  have hadd : ∀ {p q : Page} {w : Widget}, p.IsStored room → w.props.IsStored room →
      p.addWidget w = .ok q → q.IsStored room := by
    intro p q w hp hw hq
    unfold Page.addWidget at hq
    split at hq
    · cases hq
    · cases hq
      intro v hv
      rcases List.mem_append.mp hv with hv | hv
      · exact hp v hv
      · rw [List.mem_singleton.mp hv]
        exact hw
  constructor
  · exact fun index w hw => absurd hw List.not_mem_nil
  · exact fun p name hp => hp
  · exact fun p seconds hp => hp
  · exact fun index place p hp => hp
  · exact fun p q m ordinal line hp hq =>
      hadd hp (Marker.isStored_widget (fun k hk => hg m.kind k hk) m ordinal line) hq
  · exact fun p q text ordinal w hp hw hq => hadd hp (Widget.isStored_recover? hw) hq

end Registry

namespace Layout

theorem settings_ofConfiguration (g : Registry) (text : String) :
    (ofConfiguration g text).1.settings = {} := by
  rw [ofConfiguration, Rebuild.layout]
  split
  · rfl
  · rfl

theorem isStored_ofConfiguration {g : Registry} (hg : g.All WidgetKind.HasScalars) (text : String) :
    (ofConfiguration g text).1.IsStored where
  settings := by
    rw [settings_ofConfiguration]
    exact ⟨Bag.isStored_nil, fun _ he => absurd he List.not_mem_nil⟩
  pages := forall_pages_ofConfiguration (Registry.keeps_isStored hg 122) text

/-- A layout that was loaded from a text, or rebuilt from one with kinds whose defaults are scalars. -/
inductive IsBuilt : Layout → Prop where
  | loaded {text : String} {l : Layout} (h : load text = .ok l) : IsBuilt l
  | rebuilt {g : Registry} (hg : g.All WidgetKind.HasScalars) (text : String) :
    IsBuilt (ofConfiguration g text).1

theorem IsBuilt.ofNames (names : List String) (text : String) :
    IsBuilt (ofConfiguration (Registry.ofNames names) text).1 :=
  .rebuilt (Registry.all_ofNames (fun _ hk => WidgetKind.hasScalars_of_builtin hk) names) text

theorem IsBuilt.ofBuiltin (text : String) : IsBuilt (ofConfiguration .builtin text).1 :=
  .rebuilt (Registry.all_ofKinds fun _ hk => WidgetKind.hasScalars_of_builtin hk) text

theorem IsBuilt.isStored {l : Layout} (h : l.IsBuilt) : l.IsStored := by
  cases h with
  | loaded h => exact isStored_of_load h
  | rebuilt hg text => exact isStored_ofConfiguration hg text

/-- Whatever is built from a text can be saved and loaded again, if its numbers are read back. -/
theorem load_save_of_isBuilt {l : Layout} (hbuilt : l.IsBuilt) (hlegible : l.IsLegible) :
    load l.save = .ok l := load_save hbuilt.isStored hlegible

end Layout

/-! ## Numbers with a short numeral, and numbers with none -/

namespace Widget

/-- The floating point numbers of a widget outside its properties. -/
def reals (w : Widget) : List Binary64 :=
  [w.x, w.y, w.width, w.height] ++ w.condition.lowest.toList ++ w.condition.highest.toList

theorem allReals_of_reals {P Q : Binary64 → Prop} {w : Widget} (h : ∀ x ∈ w.reals, P x)
    (hprops : ∀ e ∈ w.props, e.2.AllReals Q) : w.AllReals P Q := by
  simp only [reals, List.forall_mem_append, List.forall_mem_cons] at h
  obtain ⟨⟨⟨hx, hy, hwidth, hheight, -⟩, hlowest⟩, hhighest⟩ := h
  exact ⟨hx, hy, hwidth, hheight, fun b hb => hlowest b (Option.mem_toList.mpr hb),
    fun b hb => hhighest b (Option.mem_toList.mpr hb), hprops⟩

end Widget

namespace Layout

variable {l : Layout}

/-- Short numbers are read back, wherever they stand in a layout. -/
theorem isLegible_of_isShort (h : l.AllReals IsShortReal IsShortReal) : l.IsLegible :=
  h.mono (fun _ => isReadBack_of_isShort) fun _ => isReadBack_of_isShort

theorem allReals_of_widgets {P Q : Binary64 → Prop} (hextra : l.settings.extra = [])
    (h : ∀ w ∈ l.widgets, (∀ x ∈ w.reals, P x) ∧ w.props = []) : l.AllReals P Q where
  extra := by
    rw [hextra]
    exact fun e he => absurd he List.not_mem_nil
  widgets := fun w hw => by
    obtain ⟨hreals, hprops⟩ := h w hw
    refine Widget.allReals_of_reals hreals ?_
    rw [hprops]
    exact fun e he => absurd he List.not_mem_nil

/-- A marker with fractions, one of them in the bound of its condition. -/
def measuredLines : List String := ["lambda: |-", "  // widget:text id:t x:12.5 cond_ent:s cond_min:-0.25"]

/-- The layout that lines are rebuilt to with the built-in kinds. -/
def ofLines (ls : List String) : Layout := (ofConfiguration .builtin (unlines ls)).1

theorem ofLines_eq {ls : List String} (h : ∀ l ∈ ls, OneLine l) :
    ofLines ls = (Rebuild.readLines .builtin none 1 {} (ls.map Region.scanned)).layout.1 := by
  rw [ofLines, ofConfiguration, Rebuild.run_unlines h]

theorem isBuilt_ofLines (ls : List String) : (ofLines ls).IsBuilt := .ofBuiltin (unlines ls)

theorem extra_ofLines (ls : List String) : (ofLines ls).settings.extra = [] := by
  rw [ofLines, settings_ofConfiguration]

theorem load_save_of_isBuilt_measured : (ofLines measuredLines).widgets.map Widget.id = ["t"] ∧
    load (ofLines measuredLines).save = .ok (ofLines measuredLines) := by
  have hids : (ofLines measuredLines).widgets.map Widget.id = ["t"] := by
    rw [ofLines_eq (by decide)]
    decide +kernel
  have hshort : ∀ w ∈ (ofLines measuredLines).widgets, (∀ x ∈ w.reals, IsShortReal x) ∧ w.props = [] := by
    rw [ofLines_eq (by decide)]
    decide +kernel
  exact ⟨hids, load_save_of_isBuilt (isBuilt_ofLines measuredLines)
    (isLegible_of_isShort (allReals_of_widgets (extra_ofLines measuredLines) hshort))⟩

/-- A marker that places a widget infinitely far out. -/
def boundlessLines : List String := ["lambda: |-", "  // widget:text id:a x:inf"]

/-- The infinite place is saved as null, which is no number for a place. -/
theorem not_forall_load_save : ¬ ∀ l : Layout, l.IsBuilt → load l.save = .ok l := by
  intro h
  have hbuilt := isBuilt_ofLines boundlessLines
  have hsame := h _ hbuilt
  have hshort : ∀ w ∈ (ofLines boundlessLines).widgets,
      (∀ x ∈ w.reals, x.isFinite = true → IsShortReal x) ∧ w.props = [] := by
    rw [ofLines_eq (by decide)]
    decide +kernel
  have hsource := ofText_save hbuilt.isStored (allReals_of_widgets (extra_ofLines boundlessLines) fun w hw =>
    ⟨fun x hx hfinite => isReadBack_of_isShort ((hshort w hw).1 x hx hfinite), (hshort w hw).2⟩)
  have hrefused : (decoder .ofText (Source.ofJson (ofLines boundlessLines).toJson)).isOk = false := by
    rw [ofLines_eq (by decide)]
    decide +kernel
  rw [load] at hsame
  split at hsame
  · next l hl =>
    have hread := (ofText_eq_ok.mp hl).1
    rw [hsource] at hread
    rw [hread] at hrefused
    exact Bool.noConfusion hrefused
  · cases hsame

end Layout

end Dashboard
