import Dashboard.Proofs.Kind.Discs
import Dashboard.Proofs.Kind.Themes
/-!
# Hints of the editing surface

A hint and the first declarative instruction of a widget have the same color and the same fill, in both
themes and both flavors. The font size is the same too, unless it is zero, which is one pixel in a font, or
unless the widget is a clock that shows a date alone: its hint has the size of the time, its instruction
that of the date.
-/

namespace Dashboard

open Text Number

namespace Instruction

/-- The color of a text, of an outline or of a stroke. Renderers call the color of a stroke its fill. -/
def color : Instruction → String
  | .text d => d.color
  | .circle d => d.outline
  | .rectangle d => d.outline
  | .ellipse d => d.outline
  | .line d => d.fill

def fill? : Instruction → Option String
  | .circle d => d.fill
  | .rectangle d => d.fill
  | .ellipse d => d.fill
  | .text _ | .line _ => none

def fontSize? : Instruction → Option UInt32
  | .text d => some d.size
  | _ => none

end Instruction

/-- A hint has the color and the fill of an instruction, and its font size if it has one. -/
structure Hint.Shows (h : Hint) (i : Instruction) : Prop where
  color : h.color = some i.color
  fill : h.fill = i.fill?
  fontSize : ∀ n ∈ h.fontSize, i.fontSize? = some n

/-- The hint and the first instruction of a widget agree in color and fill, and have certain font sizes. -/
def WidgetKind.HintsAt (k : WidgetKind) (w : Widget) (hinted drawn : Option UInt32) : Prop :=
  ∀ s r f, ∃ h is, k.hint s.dark w = .ok h ∧ k.declarative s r f w = .ok is ∧
    ∃ i rest, is = i :: rest ∧ h.color = some i.color ∧ h.fill = i.fill? ∧ h.fontSize = hinted ∧
      i.fontSize? = drawn

theorem Setting.some_drawnColor (s : Setting) (value : String) :
    some (s.drawnColor value) = Color.resolve? value .outline s.dark := by
  have hrole : ColorRole.outline ≠ .fill := ColorRole.noConfusion
  have hsome := Color.isSome_resolve? hrole value s.dark
  rw [drawnColor, color?]
  cases hcolor : Color.resolve? value .outline s.dark with
  | some c => rfl
  | none =>
    rw [hcolor] at hsome
    cases hsome

theorem Setting.some_drawnColor_foreground (s : Setting) (value : String) :
    some (s.drawnColor value) = Color.resolve? value .foreground s.dark :=
  s.some_drawnColor value

theorem max_one_eq_self {n : UInt32} : max n 1 = n ↔ n ≠ 0 := by
  constructor
  · intro h hzero
    subst hzero
    exact absurd h (by decide)
  · intro h
    exact Kind.Clock.size_make h "" 0 false

namespace Kind

variable {w : Widget}

theorem Clock.hintsAt {p : Props} (hp : schema.read w = .ok p) :
    kind.HintsAt w (some p.timeFontSize) (some p.singleFont.size) := by
  intro s r f
  cases hsecond : p.format.secondaryPattern? with
  | none =>
    refine ⟨_, _, by simp only [kind, hint, Schema.readForExport_eq hp]; rfl,
      by simp only [kind, declarative, Schema.readForExport_eq hp, bind, Except.bind, hsecond]; rfl, ?_⟩
    exact ⟨_, _, rfl, by simp only [draw, Instruction.color, s.some_drawnColor_foreground], rfl, rfl, rfl⟩
  | some second =>
    -- the first of two lines shows the time, and the format is none of a date alone
    have hfont : p.singleFont = p.timeFont := by
      rw [Props.singleFont, secondaryPattern?_eq_some hsecond]
      rfl
    refine ⟨_, _, by simp only [kind, hint, Schema.readForExport_eq hp]; rfl,
      by simp only [kind, declarative, Schema.readForExport_eq hp, bind, Except.bind, hsecond]; rfl, ?_⟩
    rw [hfont]
    exact ⟨_, _, rfl, by simp only [draw, Instruction.color, s.some_drawnColor_foreground], rfl, rfl, rfl⟩

theorem TextBlock.hintsAt {p : Props} (hp : schema.read w = .ok p) :
    kind.HintsAt w (some p.fontSize) (some p.font.size) := by
  intro s r f
  refine ⟨_, _, by simp only [kind, hint, Schema.readForExport_eq hp]; rfl,
    by simp only [kind, declarative, Schema.readForExport_eq hp]; rfl, ?_⟩
  exact ⟨_, _, rfl, by simp only [Instruction.color, s.some_drawnColor_foreground], rfl, rfl, rfl⟩

theorem Rectangle.hintsAt {p : Props} (hp : schema.read w = .ok p) : kind.HintsAt w none none := by
  intro s r f
  refine ⟨_, _, by simp only [kind, hint, Schema.readForExport_eq hp]; rfl,
    by simp only [kind, declarative, Schema.readForExport_eq hp]; rfl, ?_⟩
  exact ⟨_, _, rfl, by simp only [Instruction.color, s.some_drawnColor, Shape.Paint.hint], rfl, rfl, rfl⟩

theorem Circle.hintsAt {p : Props} (hp : schema.read w = .ok p) : kind.HintsAt w none none := by
  intro s r f
  refine ⟨_, _, by simp only [kind, hint, Schema.readForExport_eq hp]; rfl,
    by simp only [kind, declarative, Schema.readForExport_eq hp]; rfl, ?_⟩
  exact ⟨_, _, rfl, by simp only [Instruction.color, s.some_drawnColor, Shape.Paint.hint], rfl, rfl, rfl⟩

theorem Line.hintsAt {p : Props} (hp : schema.read w = .ok p) : kind.HintsAt w none none := by
  intro s r f
  refine ⟨_, _, by simp only [kind, hint, Schema.readForExport_eq hp]; rfl,
    by simp only [kind, declarative, Schema.readForExport_eq hp]; rfl, ?_⟩
  exact ⟨_, _, rfl, by simp only [Instruction.color, s.some_drawnColor_foreground], rfl, rfl, rfl⟩

theorem Ellipse.hintsAt {p : Props} (hp : schema.read w = .ok p) : kind.HintsAt w none none := by
  intro s r f
  refine ⟨_, _, by simp only [kind, hint, Schema.readForExport_eq hp]; rfl,
    by simp only [kind, declarative, Schema.readForExport_eq hp]; rfl, ?_⟩
  exact ⟨_, _, rfl, by simp only [Instruction.color, s.some_drawnColor], rfl, rfl, rfl⟩

end Kind

/-- The hint of a widget has the size of the font that is drawn first. A text and a time have a size of at
least one pixel then, and a date has the size of the time. -/
structure Widget.HintsSize (w : Widget) : Prop where
  text : w.kind = Kind.TextBlock.kind.id → ∀ p, Kind.TextBlock.schema.read w = .ok p → p.fontSize ≠ 0
  clock : w.kind = Kind.Clock.kind.id → ∀ p, Kind.Clock.schema.read w = .ok p →
    p.timeFontSize ≠ 0 ∧ (p.format.isDate = true → p.timeFontSize = max p.dateFontSize 1)

namespace Kind

variable {w : Widget} {k : WidgetKind}

theorem Clock.singleFont_size_iff (p : Props) : p.singleFont.size = p.timeFontSize ↔
    p.timeFontSize ≠ 0 ∧ (p.format.isDate = true → p.timeFontSize = max p.dateFontSize 1) := by
  cases hdate : p.format.isDate with
  | false =>
    have hsize : p.singleFont.size = max p.timeFontSize 1 := by
      rw [Props.singleFont, hdate]
      rfl
    rw [hsize, max_one_eq_self]
    simp
  | true =>
    have hsize : p.singleFont.size = max p.dateFontSize 1 := by
      rw [Props.singleFont, hdate]
      rfl
    rw [hsize]
    constructor
    · intro h
      refine ⟨fun hzero => ?_, fun _ => h.symm⟩
      exact bne_iff_ne.mp (Circle.max_one_bne p.dateFontSize) (h.trans hzero)
    · intro h
      exact (h.2 rfl).symm

theorem hintsSize_of_kind (htext : w.kind ≠ TextBlock.kind.id) (hclock : w.kind ≠ Clock.kind.id) :
    w.HintsSize :=
  ⟨fun h => absurd h htext, fun h => absurd h hclock⟩

theorem TextBlock.hintsSize_iff {p : Props} (hkind : w.kind = kind.id) (hp : schema.read w = .ok p) :
    w.HintsSize ↔ p.fontSize ≠ 0 := by
  constructor
  · intro h
    exact h.text hkind p hp
  · intro h
    refine ⟨fun _ q hq => ?_, fun hclock => ?_⟩
    · cases hp.symm.trans hq
      exact h
    · exact absurd (hkind.symm.trans hclock) (by decide)

theorem Clock.hintsSize_iff {p : Props} (hkind : w.kind = kind.id) (hp : schema.read w = .ok p) :
    w.HintsSize ↔ p.singleFont.size = p.timeFontSize := by
  rw [singleFont_size_iff]
  constructor
  · intro h
    exact h.clock hkind p hp
  · intro h
    refine ⟨fun htext => ?_, fun _ q hq => ?_⟩
    · exact absurd (hkind.symm.trans htext) (by decide)
    · cases hp.symm.trans hq
      exact h

theorem builtin?_eq_some {id : String} (h : builtin? id = some k) : k ∈ builtin ∧ k.id = id := by
  refine ⟨List.mem_of_find?_eq_some h, ?_⟩
  rw [builtin?, List.find?_eq_some_iff_append] at h
  exact eq_of_beq h.1

/-- The font sizes of a widget that has instructions, which has a hint too, and when they are the same. -/
theorem exists_hintsAt (hk : builtin? w.kind = some k)
    (hdrawn : k.descriptor.supports .exportDeclarative = true) {bag : Bag} (hw : k.typed w = .ok bag) :
    ∃ hinted drawn, k.HintsAt w hinted drawn ∧ ((∀ n ∈ hinted, drawn = some n) ↔ w.HintsSize) := by
  obtain ⟨hmem, hid⟩ := builtin?_eq_some hk
  have hkind : w.kind = k.id := hid.symm
  have hother : k.id ≠ TextBlock.kind.id → k.id ≠ Clock.kind.id →
      ((∀ n ∈ (none : Option UInt32), none = some n) ↔ w.HintsSize) := fun htext hclock =>
    iff_of_true (fun n hn => nomatch hn) (hintsSize_of_kind (hkind ▸ htext) (hkind ▸ hclock))
  simp only [builtin, List.mem_cons, List.not_mem_nil, or_false] at hmem
  rcases hmem with rfl | rfl | rfl | rfl | rfl | rfl | rfl | rfl | rfl
  · obtain ⟨p, hp, -⟩ := exists_of_map hw
    refine ⟨_, _, Clock.hintsAt hp, ?_⟩
    rw [Clock.hintsSize_iff hkind hp]
    simp
  · obtain ⟨p, hp, -⟩ := exists_of_map hw
    refine ⟨_, _, TextBlock.hintsAt hp, ?_⟩
    rw [TextBlock.hintsSize_iff hkind hp, ← max_one_eq_self]
    simp [TextBlock.Props.font, FontRequest.make]
  · obtain ⟨p, hp, -⟩ := exists_of_map hw
    exact ⟨_, _, Rectangle.hintsAt hp, hother (by decide) (by decide)⟩
  · obtain ⟨p, hp, -⟩ := exists_of_map hw
    exact ⟨_, _, Circle.hintsAt hp, hother (by decide) (by decide)⟩
  · obtain ⟨p, hp, -⟩ := exists_of_map hw
    exact ⟨_, _, Line.hintsAt hp, hother (by decide) (by decide)⟩
  · exact absurd hdrawn (by decide)
  · exact absurd hdrawn (by decide)
  · exact absurd hdrawn (by decide)
  · obtain ⟨p, hp, -⟩ := exists_of_map hw
    exact ⟨_, _, Ellipse.hintsAt hp, hother (by decide) (by decide)⟩

/-- A widget of a kind with instructions has a hint too, and both are there if its properties can be read.
In either theme the hint has the color and the fill of the first instruction, and it shows that instruction
exactly if it has the size of the font that is drawn first. -/
theorem hint_shows_iff (hk : builtin? w.kind = some k)
    (hdrawn : k.descriptor.supports .exportDeclarative = true) {bag : Bag} (hw : k.typed w = .ok bag)
    (s : Setting) (r : Resources) (f : Flavor) :
    ∃ h i rest, k.hint s.dark w = .ok h ∧ k.declarative s r f w = .ok (i :: rest) ∧
      h.color = some i.color ∧ h.fill = i.fill? ∧ (h.Shows i ↔ w.HintsSize) := by
  obtain ⟨hinted, drawn, hagree, hsizes⟩ := exists_hintsAt hk hdrawn hw
  obtain ⟨h, is, hh, his, i, rest, rfl, hcolor, hfill, hhinted, hsize⟩ := hagree s r f
  subst hhinted hsize
  refine ⟨h, i, rest, hh, his, hcolor, hfill, ?_⟩
  rw [← hsizes]
  exact ⟨fun hshows => hshows.fontSize, fun hsame => ⟨hcolor, hfill, hsame⟩⟩

/-- A clock that shows a date alone, whose time has a certain size. -/
def dateClock (size : UInt32) : Widget :=
  { Widget.make "clock" "datetime" with
    props := [("format", .string "date_only"), ("time_font_size", count size)] }

theorem read_dateClock (size : UInt32) :
    Clock.schema.read (dateClock size) = .ok { format := .dateOnly, timeFontSize := size } := by
  refine Clock.isRestorable.read_of_overlay ?_
  simp +decide only [dateClock, Bag.overlay, Schema.defaults, Schema.bag, Clock.schema, Table.ofList, Table.put,
    Json.isNull, count, Json.ofNat, List.foldl, reduceIte, TimeFormat.name]

theorem typed_dateClock (size : UInt32) : Clock.kind.typed (dateClock size) =
    .ok (Clock.schema.bag { format := .dateOnly, timeFontSize := size }) :=
  congrArg (Except.map Clock.schema.bag) (read_dateClock size)

theorem builtin?_dateClock (size : UInt32) : builtin? (dateClock size).kind = some Clock.kind := rfl

theorem hint_shows_iff_dateClock :
    builtin? (dateClock 16).kind = some Clock.kind ∧
      Clock.kind.descriptor.supports .exportDeclarative = true ∧
      Clock.kind.typed (dateClock 16) =
        .ok (Clock.schema.bag { format := .dateOnly, timeFontSize := 16 }) ∧
      ∃ h i rest, Clock.kind.hint true (dateClock 16) = .ok h ∧
        Clock.kind.declarative ⟨.declarative .oepl, true, {}⟩ {} .oepl (dateClock 16) = .ok (i :: rest) ∧
        h.Shows i := by
  obtain ⟨h, i, rest, hh, hi, -, -, hshows⟩ := hint_shows_iff (builtin?_dateClock 16) (by decide)
    (typed_dateClock 16) ⟨.declarative .oepl, true, {}⟩ {} .oepl
  refine ⟨rfl, by decide, typed_dateClock 16, h, i, rest, hh, hi, hshows.mpr ?_⟩
  exact (Clock.hintsSize_iff rfl (read_dateClock 16)).mpr (by decide)

/-- The hint of a date has the size of a time, which is not shown. -/
theorem not_forall_hint_shows :
    ¬ ∀ (w : Widget) (k : WidgetKind) (bag : Bag), builtin? w.kind = some k →
      k.descriptor.supports .renderHint = true → k.descriptor.supports .exportDeclarative = true →
      k.typed w = .ok bag → ∀ s r f, ∃ h i rest, k.hint s.dark w = .ok h ∧
        k.declarative s r f w = .ok (i :: rest) ∧ h.Shows i := by
  intro hall
  obtain ⟨h, i, rest, hh, hi, hshows⟩ := hall (dateClock 28) Clock.kind _ (builtin?_dateClock 28)
    (by decide) (by decide) (typed_dateClock 28) ⟨.declarative .oepl, false, {}⟩ {} .oepl
  obtain ⟨h', is, hh', his, i', rest', rfl, -, -, hhinted, hdrawn⟩ :=
    Clock.hintsAt (read_dateClock 28) ⟨.declarative .oepl, false, {}⟩ {} .oepl
  obtain rfl : h = h' := Except.ok.inj (hh.symm.trans hh')
  obtain ⟨rfl, rfl⟩ := List.cons.inj (Except.ok.inj (hi.symm.trans his))
  have hsize := hshows.fontSize 28 hhinted
  rw [hdrawn] at hsize
  exact absurd hsize (by decide)

end Kind

end Dashboard
