import Dashboard.Proofs.Kind.Calls
import Dashboard.Proofs.Kind.Restored
/-!
# Anchors of texts and clocks

The drawing code and the declarative instructions of a text or of a clock put the same lines at the same places
with the same alignments. The one exception is the height of a clock with two lines: the drawing code makes room for
the sizes that the widget names, the instructions make room for the sizes of its fonts, and a font has at least one
pixel.
-/

namespace Dashboard

open Text Number Emission Statement Json

/-- Where a line of text is anchored, and by which point of its box. -/
structure Anchor where
  x : Pixel
  y : Pixel
  alignment : Alignment
deriving DecidableEq, Repr

/-- The anchor without its height. -/
def Anchor.column (a : Anchor) : Pixel × Alignment := (a.x, a.alignment)

/-- The anchor of a call that shows a text. -/
def Call.anchor? (c : Call) : Option Anchor :=
  match c.arguments with
  | x :: y :: _ :: _ :: align :: _ =>
    if ["print", "printf", "strftime"].contains c.name then do
      let x ← Drawing.pixel? x.toList
      let y ← Drawing.pixel? y.toList
      let alignment ← Alignment.ofTextAlign? align
      return { x, y, alignment }
    else none
  | _ => none

/-- The anchor of an instruction that shows a text. -/
def Instruction.anchor? : Instruction → Option Anchor
  | .text d => (Alignment.ofAnchorCode? d.anchor).map fun alignment => ⟨d.x, d.y, alignment⟩
  | _ => none

namespace WidgetKind

/-- The drawing code of a widget always shows lines with certain anchors, and draws nothing else. -/
def AnchorsCalls (k : WidgetKind) (w : Widget) (as : List Anchor) : Prop :=
  ∀ s, Gives (fun lines => (Call.ofLines lines).map Call.anchor? = as.map some) (k.procedural s w)

/-- The instructions of a widget always show lines with certain anchors, and draw nothing else. -/
def AnchorsInstructions (k : WidgetKind) (w : Widget) (as : List Anchor) : Prop :=
  ∀ s r f, ∃ is, k.declarative s r f w = .ok is ∧ is.map Instruction.anchor? = as.map some

variable {k : WidgetKind} {w : Widget} {as bs : List Anchor}

theorem AnchorsCalls.unique (ha : k.AnchorsCalls w as) (hb : k.AnchorsCalls w bs) : as = bs := by
  have hsame := (ha ⟨.procedural, false, {}⟩).unique (hb ⟨.procedural, false, {}⟩)
  exact List.map_injective_iff.mpr (Option.some_injective _) hsame

theorem AnchorsInstructions.unique (ha : k.AnchorsInstructions w as) (hb : k.AnchorsInstructions w bs) :
    as = bs := by
  obtain ⟨is, his, ha⟩ := ha ⟨.procedural, false, {}⟩ {} .oepl
  obtain ⟨is', his', hb⟩ := hb ⟨.procedural, false, {}⟩ {} .oepl
  obtain rfl : is = is' := by simpa [his] using his'
  exact List.map_injective_iff.mpr (Option.some_injective _) (ha.symm.trans hb)

end WidgetKind

namespace Drawing

theorem pixel?_pixelText (p : Pixel) : pixel? (Kind.pixelText p).toList = some p := by
  have hlow : lowestOf 32 = -2147483648 := by decide
  have hhigh : highestOf 32 = 2147483647 := by decide
  have hle := p.le_toInt
  have hlt := p.toInt_lt
  rw [pixel?, Kind.pixelText, readInt32?, readInt?_intText (by omega) (by omega), Option.map_some, Int32.ofInt_toInt]

end Drawing

theorem Call.anchor?_mk {name : String} (hname : name ∈ ["print", "printf", "strftime"]) (x y : Pixel)
    (a : Alignment) (font color : String) (rest : List String) :
    (Call.mk name (Kind.pixelText x :: Kind.pixelText y :: font :: color :: a.textAlign :: rest)).anchor? =
      some ⟨x, y, a⟩ := by
  have hshows : ["print", "printf", "strftime"].contains name = true := List.contains_iff_mem.mpr hname
  simp only [anchor?, hshows, if_true, Drawing.pixel?_pixelText, Alignment.ofTextAlign?_textAlign]
  rfl

namespace Kind

variable {w : Widget}

/-! ## Texts -/

namespace TextBlock

def anchor (p : Props) (r : Rect) : Anchor :=
  ⟨(p.alignment.anchorPoint r).1, (p.alignment.anchorPoint r).2, p.alignment⟩

theorem anchor?_drawn (p : Props) (w : Widget) (font color : String) :
    (drawn p w font color).anchor? = some (anchor p w.rect) := by
  unfold drawn
  split
  · exact Call.anchor?_mk (by decide) _ _ _ _ _ _
  · exact Call.anchor?_mk (by decide) _ _ _ _ _ _

theorem anchorsCalls {p : Props} (hp : schema.read w = .ok p) : kind.AnchorsCalls w [anchor p w.rect] := by
  intro s
  refine (gives_procedural hp s).mono fun lines hlines => ?_
  obtain ⟨font, color, hlines⟩ := hlines
  rw [hlines, List.map_singleton, anchor?_drawn, List.map_singleton]

theorem anchorsInstructions {p : Props} (hp : schema.read w = .ok p) :
    kind.AnchorsInstructions w [anchor p w.rect] := by
  intro s r f
  refine ⟨_, by simp only [kind, declarative, Schema.readForExport_eq hp]; rfl, ?_⟩
  simp [Instruction.anchor?, Alignment.ofAnchorCode?_anchorCode, anchor]

end TextBlock

/-! ## Clocks -/

namespace Clock

/-- The anchors of the lines of a clock whose sizes take up certain heights. -/
def anchors (p : Props) (r : Rect) (timeSize dateSize : UInt32) : List Anchor :=
  let point := p.alignment.anchorPoint r
  match p.format.secondaryPattern? with
  | some _ =>
    let stack := stackIn r p timeSize dateSize
    let top := p.alignment.withVertical .top
    [⟨point.1, stack.firstY, top⟩, ⟨point.1, stack.secondY, top⟩]
  | none => [⟨point.1, point.2, p.alignment⟩]

theorem anchorsCalls {p : Props} (hp : schema.read w = .ok p) :
    kind.AnchorsCalls w (anchors p w.rect p.timeFontSize p.dateFontSize) := by
  intro s
  refine (gives_procedural hp s).mono fun lines hlines => ?_
  obtain ⟨timeFont, dateFont, color, hlines⟩ := hlines
  have hline : ∀ x y a font pattern, (drawnLine x y a font color pattern).anchor? = some ⟨x, y, a⟩ :=
    fun x y a font pattern => Call.anchor?_mk (by decide) x y a _ _ _
  rw [hlines]
  unfold drawn anchors
  cases p.format.secondaryPattern? <;> simp [hline]

theorem anchorsInstructions {p : Props} (hp : schema.read w = .ok p) :
    kind.AnchorsInstructions w (anchors p w.rect p.timeFont.size p.dateFont.size) := by
  intro s r f
  have hline : ∀ pattern x y a font, (draw s f p w.rect pattern x y a font).anchor? = some ⟨x, y, a⟩ := by
    intro pattern x y a font
    rw [draw, Instruction.anchor?, Alignment.ofAnchorCode?_anchorCode, Option.map_some]
  cases hsecond : p.format.secondaryPattern? with
  | none =>
    refine ⟨_, by simp only [kind, declarative, Schema.readForExport_eq hp, bind, Except.bind, hsecond]; rfl, ?_⟩
    simp [anchors, hsecond, hline]
  | some second =>
    refine ⟨_, by simp only [kind, declarative, Schema.readForExport_eq hp, bind, Except.bind, hsecond]; rfl, ?_⟩
    simp [anchors, hsecond, hline]

/-- No line of two is without a height, but for the lower one where the upper one stands at the top edge. -/
def Props.HasHeights (p : Props) : Prop :=
  p.format = .timeDate → p.timeFontSize ≠ 0 ∧ (p.dateFontSize = 0 → p.alignment.vertical = .top)

theorem column_anchors (p : Props) (r : Rect) (timeSize dateSize timeSize' dateSize' : UInt32) :
    (anchors p r timeSize dateSize).map Anchor.column = (anchors p r timeSize' dateSize').map Anchor.column := by
  unfold anchors
  cases p.format.secondaryPattern? <;> simp [Anchor.column]

theorem size_make {size : UInt32} (h : size ≠ 0) (family : String) (weight : UInt32) (italic : Bool) :
    (FontRequest.make family weight size italic).size = size := by
  have hone : 1 ≤ size := by
    rw [UInt32.le_iff_toNat_le]
    exact Nat.pos_of_ne_zero fun hzero => h (UInt32.toNat_inj.mp hzero)
  change (if size ≤ 1 then 1 else size) = size
  split
  · exact UInt32.le_antisymm hone ‹_›
  · rfl

theorem secondaryPattern?_eq_some {f : TimeFormat} {second : String} (h : f.secondaryPattern? = some second) :
    f = .timeDate := by
  cases f with
  | timeDate => rfl
  | _ => cases h

theorem anchors_eq {p : Props} (h : p.HasHeights) (r : Rect) :
    anchors p r p.timeFontSize p.dateFontSize = anchors p r p.timeFont.size p.dateFont.size := by
  unfold anchors
  cases hsecond : p.format.secondaryPattern? with
  | none => rfl
  | some second =>
    obtain ⟨htime, hdate⟩ := h (secondaryPattern?_eq_some hsecond)
    have htimeFont : p.timeFont.size = p.timeFontSize := size_make htime _ _ _
    by_cases hzero : p.dateFontSize = 0
    · -- the block of a clock at the top starts at the edge, whatever its height is
      simp [stackIn, StackedLines.place, StackedLines.blockTop, hdate hzero, htimeFont]
    · have hdateFont : p.dateFont.size = p.dateFontSize := size_make hzero _ _ _
      simp only [htimeFont, hdateFont]

end Clock

/-- Texts and clocks have the same anchors in the drawing code and in the instructions of both flavors, line by
line. For a clock of two lines of which one has no height, only the heights at which they stand may differ. -/
theorem anchors_agree (w : Widget) :
    (∀ p, TextBlock.schema.read w = .ok p →
      ∃ as, TextBlock.kind.AnchorsCalls w as ∧ TextBlock.kind.AnchorsInstructions w as) ∧
    (∀ p, Clock.schema.read w = .ok p →
      ∃ as bs, Clock.kind.AnchorsCalls w as ∧ Clock.kind.AnchorsInstructions w bs ∧
        as.map Anchor.column = bs.map Anchor.column ∧ (p.HasHeights → as = bs)) := by
  refine ⟨fun p hp => ?_, fun p hp => ?_⟩
  · exact ⟨_, TextBlock.anchorsCalls hp, TextBlock.anchorsInstructions hp⟩
  · exact ⟨_, _, Clock.anchorsCalls hp, Clock.anchorsInstructions hp, Clock.column_anchors p _ _ _ _ _,
      fun h => Clock.anchors_eq h _⟩

/-- A clock with two lines in a box of 100 by 60 pixels, whose time has a certain size. -/
def tallClock (size : UInt32) : Widget :=
  { (Widget.make "clock" "datetime").withGeometry (.ofNat 0) (.ofNat 0) (.ofNat 100) (.ofNat 60) with
    props := [("time_font_size", count size)] }

theorem read_tallClock (size : UInt32) : Clock.schema.read (tallClock size) = .ok { timeFontSize := size } := by
  refine Clock.isRestorable.read_of_overlay ?_
  simp +decide only [tallClock, Bag.overlay, Schema.defaults, Schema.bag, Clock.schema, Table.ofList, Table.put,
    Json.isNull, count, Json.ofNat, List.foldl, reduceIte]

theorem anchors_agree_tall :
    (TextBlock.schema.read (Widget.make "title" "text") = .ok {} ∧
      ∃ as, TextBlock.kind.AnchorsCalls (Widget.make "title" "text") as ∧
        TextBlock.kind.AnchorsInstructions (Widget.make "title" "text") as) ∧
    Clock.schema.read (tallClock 40) = .ok { timeFontSize := 40 } ∧
      Clock.Props.HasHeights { timeFontSize := 40 } ∧
      ∃ as bs, Clock.kind.AnchorsCalls (tallClock 40) as ∧ Clock.kind.AnchorsInstructions (tallClock 40) bs ∧
        as.map Anchor.column = bs.map Anchor.column ∧ as = bs := by
  have htext : TextBlock.schema.read (Widget.make "title" "text") = .ok {} :=
    TextBlock.isRestorable.read_of_overlay List.foldl_nil
  have hheights : Clock.Props.HasHeights { timeFontSize := 40 } := fun _ => ⟨by decide, by decide⟩
  obtain ⟨as, bs, has, hbs, hcolumn, heq⟩ := (anchors_agree (tallClock 40)).2 _ (read_tallClock 40)
  exact ⟨⟨htext, (anchors_agree (Widget.make "title" "text")).1 _ htext⟩, read_tallClock 40, hheights, as, bs, has,
    hbs, hcolumn, heq hheights⟩

/-- A time without a size takes up a pixel among the instructions only, so the date below it lies lower there. -/
theorem not_forall_clock_anchored :
    ¬ ∀ w p, Clock.schema.read w = .ok p →
      ∃ as, Clock.kind.AnchorsCalls w as ∧ Clock.kind.AnchorsInstructions w as := by
  intro h
  obtain ⟨as, hcalls, hinstructions⟩ := h (tallClock 0) _ (read_tallClock 0)
  have hcode := hcalls.unique (Clock.anchorsCalls (read_tallClock 0))
  have hdrawn := hinstructions.unique (Clock.anchorsInstructions (read_tallClock 0))
  have hdiffer : Clock.anchors { timeFontSize := 0 } (tallClock 0).rect 0 16 ≠
      Clock.anchors { timeFontSize := 0 } (tallClock 0).rect 1 16 := by
    decide +kernel
  exact hdiffer (hcode.symm.trans hdrawn)

end Kind

end Dashboard
