import Dashboard.Proofs.Kind.Anchors
/-!
# The circle of a circle widget

What the drawing code, the instructions and the node of a circle widget show: which circle, whether its interior is
painted, and whether it has an outline. The drawing code and the instructions have the same circle. The node stays in
the corner of its box, so its circle is the same exactly if the center of the box is that far from the corner as the
radius says. The instructions have an outline always, and only a node can have an interior that is not opaque.
-/

namespace Dashboard

open Text Number Emission Statement

/-- A circle by its center and its radius. -/
structure Disc where
  x : Int
  y : Int
  radius : Int
deriving DecidableEq, Repr

structure DiscPicture where
  disc : Disc
  interior : Bool
  outline : Bool
deriving DecidableEq, Repr

/-- The circle of a drawing call. Nested outlines count as the outermost of them, whose index is zero. -/
def Call.disc? (c : Call) : Option Disc :=
  match c.arguments with
  | [x, y, radius, _] => do
    let x ← Drawing.pixel? x.toList
    let y ← Drawing.pixel? y.toList
    let radius ← Drawing.pixel? (radius.toList.takeWhile (· ≠ ' '))
    return ⟨x.toInt, y.toInt, radius.toInt⟩
  | _ => none

/-- Calls that paint a circle and draw it, or one of both, or nothing. -/
structure Call.Show (cs : List Call) (p : DiscPicture) : Prop where
  disc : ∀ c ∈ cs, c.name ∈ ["filled_circle", "circle"] ∧ c.disc? = some p.disc
  interior : p.interior = (cs.map Call.name).contains "filled_circle"
  outline : p.outline = (cs.map Call.name).contains "circle"

def Instruction.picture? : Instruction → Option DiscPicture
  | .circle d => some ⟨⟨d.x.toInt, d.y.toInt, d.radius.toInt⟩, d.fill.isSome, d.width != 0⟩
  | _ => none

namespace RetainedNode

def find? (key : String) (n : RetainedNode) : Option Json := n.props.find? key

def whole? (key : String) (n : RetainedNode) : Option Int :=
  match n.find? key with
  | some (.number (.whole i)) => some i
  | _ => none

/-- Whether an opacity is one of those that let nothing be seen. -/
def isClear (opacity : String) : Bool := ["TRANSP", "0%"].contains opacity

/-- Whether a background has a color and an opacity that lets it be seen. -/
def hasBackground (n : RetainedNode) : Bool :=
  match n.find? "bg_color", n.find? "bg_opa" with
  | some _, some (.string opacity) => !isClear opacity
  | _, _ => false

/-- A node with circular corners is the circle in its box. -/
def picture? (n : RetainedNode) : Option DiscPicture :=
  match n.find? "radius" with
  | some (.string "LV_RADIUS_CIRCLE") => do
    let x ← n.whole? "x"
    let y ← n.whole? "y"
    let width ← n.whole? "width"
    let height ← n.whole? "height"
    let border ← n.whole? "border_width"
    return ⟨⟨x + width / 2, y + height / 2, width / 2⟩, n.hasBackground, border != 0⟩
  | _ => none

@[simp] theorem find?_put_self (key : String) (value : Json) (n : RetainedNode) :
    (n.put key value).find? key = some value := Table.find?_put_self key value n.props

@[simp] theorem find?_nil (key tag : String) : (RetainedNode.mk tag []).find? key = none := rfl

theorem find?_put_of_ne {key other : String} (h : other ≠ key) (value : Json) (n : RetainedNode) :
    (n.put key value).find? other = n.find? other := Table.find?_put_of_ne value n.props h

end RetainedNode

namespace WidgetKind

/-- What the drawing code of a widget shows, whatever the setting is. -/
def CallsShow (k : WidgetKind) (w : Widget) (p : DiscPicture) : Prop :=
  ∀ s, Gives (fun lines => Call.Show (Call.ofLines lines) p) (k.procedural s w)

def InstructionsShow (k : WidgetKind) (w : Widget) (p : DiscPicture) : Prop :=
  ∀ s r f, ∃ i, k.declarative s r f w = .ok [i] ∧ i.picture? = some p

def NodesShow (k : WidgetKind) (w : Widget) (p : DiscPicture) : Prop :=
  ∀ s r, ∃ n, k.retained s r w = .ok [n] ∧ n.picture? = some p

variable {k : WidgetKind} {w : Widget} {p q : DiscPicture}

theorem InstructionsShow.unique (hp : k.InstructionsShow w p) (hq : k.InstructionsShow w q) : p = q := by
  obtain ⟨i, hi, hp⟩ := hp ⟨.retained, false, {}⟩ {} .oepl
  obtain ⟨j, hj, hq⟩ := hq ⟨.retained, false, {}⟩ {} .oepl
  obtain rfl : i = j := by simpa [hi] using hj
  exact Option.some.inj (hp.symm.trans hq)

theorem NodesShow.unique (hp : k.NodesShow w p) (hq : k.NodesShow w q) : p = q := by
  obtain ⟨n, hn, hp⟩ := hp ⟨.retained, false, {}⟩ {}
  obtain ⟨m, hm, hq⟩ := hq ⟨.retained, false, {}⟩ {}
  obtain rfl : n = m := by simpa [hn] using hm
  exact Option.some.inj (hp.symm.trans hq)

end WidgetKind

namespace Rect

/-- The circle around the center of a box. -/
def disc (r : Rect) : Disc := ⟨r.center.1.toInt, r.center.2.toInt, r.innerRadius.toInt⟩

/-- The circle of the same size that touches the left and the upper edge of a box. -/
def cornerDisc (r : Rect) : Disc :=
  ⟨r.x.toInt + r.innerRadius.toInt, r.y.toInt + r.innerRadius.toInt, r.innerRadius.toInt⟩

/-- Square boxes of an even side have both circles in one place, as long as their centers are pixels. -/
theorem disc_of_square {r : Rect} {radius : Int} (hwidth : r.width.toInt = 2 * radius)
    (hheight : r.height.toInt = 2 * radius) (hradius : 0 ≤ radius) (hx : r.x.toInt + radius ≤ 2147483647)
    (hy : r.y.toInt + radius ≤ 2147483647) : r.disc = r.cornerDisc := by
  have hxlow := r.x.le_toInt
  have hylow := r.y.le_toInt
  have hwmax := r.width.toInt_lt
  have hmax : Int32.maxValue.toInt = 2147483647 := rfl
  have hmin : Int32.minValue.toInt = -2147483648 := rfl
  have hclamp : ∀ i : Int, -2147483648 ≤ i → i ≤ 2147483647 → (Pixel.clamp (Pixel.half (2 * i))).toInt = i := by
    intro i hlow hhigh
    have hhalf := Pixel.two_mul_half (2 * i)
    rw [if_pos (by omega)] at hhalf
    rw [Pixel.clamp, Int32.toInt_ofIntClamp (by omega) (by omega)]
    omega
  have hinner : r.innerRadius.toInt = radius := by
    rw [innerRadius, hwidth, hheight, Int.min_self, hclamp radius (by omega) (by omega)]
  have hmiddle : ∀ edge extent : Pixel, extent.toInt = 2 * radius → edge.toInt + radius ≤ 2147483647 →
      (middle edge extent).toInt = edge.toInt + radius := by
    intro edge extent hextent hedge
    have hlow := edge.le_toInt
    rw [middle, hextent, ← Int.mul_add, hclamp _ (by omega) hedge]
  have hcenter : r.center = (middle r.x r.width, middle r.y r.height) := rfl
  rw [disc, cornerDisc, hcenter, hinner, hmiddle _ _ hwidth hx, hmiddle _ _ hheight hy]

end Rect

theorem Kind.takeWhile_pixelText (p : Pixel) {rest : List Char} (hrest : rest.takeWhile (· ≠ ' ') = []) :
    ((pixelText p).toList ++ rest).takeWhile (· ≠ ' ') = (pixelText p).toList := by
  have hchars : ∀ c ∈ (pixelText p).toList, decide (c ≠ ' ') = true := by
    intro c hc
    have hnumeral : IsNumeralChar c := isNumeralChar_intText hc
    refine decide_eq_true ?_
    rintro rfl
    exact absurd hnumeral (by simp [IsNumeralChar])
  rw [List.takeWhile_append_of_pos hchars, hrest, List.append_nil]

namespace Kind.Circle

variable {w : Widget}

theorem disc?_mk (name : String) (r : Rect) (rest : String) (hrest : rest.toList.takeWhile (· ≠ ' ') = [])
    (color : String) :
    (Call.mk name (centerArguments r ++ [pixelText r.innerRadius ++ rest, color])).disc? = some r.disc := by
  simp only [Call.disc?, centerArguments, List.cons_append, List.nil_append, String.toList_append,
    takeWhile_pixelText _ hrest, Drawing.pixel?_pixelText]
  rfl

theorem show_drawn (p : Props) (r : Rect) (fill : Option String) (outline : String) :
    Call.Show (drawn p r fill outline) ⟨r.disc, fill.isSome, p.borderWidth != 0⟩ := by
  have hsingle : ∀ name color, (Call.mk name (centerArguments r ++ [pixelText r.innerRadius, color])).disc? =
      some r.disc := fun name color => by
    simpa using disc?_mk name r "" rfl color
  have hnested := disc?_mk "circle" r " - i" rfl outline
  unfold drawn
  by_cases hnone : p.borderWidth = 0
  · cases fill <;> constructor <;> simp [hnone, hsingle]
  · by_cases hone : p.borderWidth = 1
    · cases fill <;> constructor <;> simp [hone, hsingle]
    · cases fill <;> constructor <;> simp [hnone, hone, hsingle, hnested]

theorem callsShow {p : Props} (hp : schema.read w = .ok p) :
    kind.CallsShow w ⟨w.rect.disc, p.paint.isFilled, p.borderWidth != 0⟩ := by
  intro s
  refine (gives_procedural hp s).mono fun lines hlines => ?_
  obtain ⟨fill, outline, hfill, hlines⟩ := hlines
  rw [hlines, ← hfill]
  exact show_drawn p w.rect fill outline

theorem isSome_literalFill (p : Shape.Paint) (s : Setting) : (p.literalFill s).isSome = p.isFilled := by
  unfold Shape.Paint.literalFill Shape.Paint.isFilled
  cases p.fill with
  | true => simp [Shape.Paint.isSome_color?_fill]
  | false => rfl

theorem max_one_bne (n : UInt32) : (max n 1 != 0) = true := by
  change ((if n ≤ 1 then 1 else n) != 0) = true
  split
  · rfl
  · rename_i h
    rw [bne_iff_ne]
    rintro rfl
    exact h (by decide)

theorem instructionsShow {p : Props} (hp : schema.read w = .ok p) :
    kind.InstructionsShow w ⟨w.rect.disc, p.paint.isFilled, true⟩ := by
  intro s r f
  refine ⟨_, by simp only [kind, declarative, Schema.readForExport_eq hp]; rfl, ?_⟩
  simp only [Instruction.picture?, isSome_literalFill, max_one_bne]
  rfl

theorem toInt_diameter (hradius : 0 ≤ w.rect.innerRadius.toInt)
    (hdiameter : 2 * w.rect.innerRadius.toInt ≤ 2147483647) :
    (diameter w).toInt = 2 * w.rect.innerRadius.toInt := by
  have htwo : (2 : Int32).toInt = 2 := rfl
  rw [diameter, Int32.toInt_mul, htwo, Int.bmod_eq_of_le_mul_two (by omega) (by omega), Int.mul_comm]

theorem innerRadius_nonneg {r : Rect} (hwidth : 0 ≤ r.width) (hheight : 0 ≤ r.height) :
    0 ≤ r.innerRadius.toInt := by
  have hw : 0 ≤ r.width.toInt := Int32.le_iff_toInt_le.mp hwidth
  have hh : 0 ≤ r.height.toInt := Int32.le_iff_toInt_le.mp hheight
  have hwmax := r.width.toInt_lt
  have hhalf := Pixel.two_mul_half (min r.width.toInt r.height.toInt)
  have hmax : Int32.maxValue.toInt = 2147483647 := rfl
  have hmin : Int32.minValue.toInt = -2147483648 := rfl
  rw [Rect.innerRadius, Pixel.clamp, Int32.toInt_ofIntClamp]
  all_goals split at hhalf <;> omega

theorem isVisible_opacityText (opacity : UInt8) :
    (!RetainedNode.isClear (opacityText opacity)) = decide (1 < opacity) := by
  have hall : ∀ n < 256, (!RetainedNode.isClear (opacityText (UInt8.ofNat n))) =
      decide (1 < UInt8.ofNat n) := by
    decide +kernel
  simpa using hall opacity.toNat opacity.toNat_lt

theorem background_eq (p : Shape.Paint) (s : Setting) : ∃ color,
    p.background s = if p.isFilled then (some color, opacityText p.opacity) else (none, opacityText 0) := by
  have hsome := Shape.Paint.isSome_color?_fill s p.fillColor
  unfold Shape.Paint.background Shape.Paint.isFilled Setting.guiColor?
  cases hcolor : s.color? p.fillColor .fill with
  | none =>
    rw [hcolor] at hsome
    simp [← hsome]
  | some color =>
    rw [hcolor] at hsome
    exact ⟨Setting.guiText color, by cases p.fill <;> simp [← hsome]⟩

theorem picture?_node (p : Props) (w : Widget) (diameter : Pixel) (background : Option String × String)
    (outline : String) : (node p w diameter background outline).picture? =
      some ⟨⟨w.rect.x.toInt + diameter.toInt / 2, w.rect.y.toInt + diameter.toInt / 2, diameter.toInt / 2⟩,
        background.1.isSome && !RetainedNode.isClear background.2, p.borderWidth != 0⟩ := by
  have hborder : ((p.borderWidth.toNat : Int) != 0) = (p.borderWidth != 0) := by
    rw [Bool.eq_iff_iff, bne_iff_ne, bne_iff_ne, Ne, Ne, Int.natCast_eq_zero, ← UInt32.toNat_inj]
    rfl
  obtain ⟨color, opacity⟩ := background
  cases color with
  | none =>
    simp [node, RetainedNode.picture?, RetainedNode.whole?, RetainedNode.hasBackground, RetainedNode.putTextIf,
      RetainedNode.putText, RetainedNode.putPixel, RetainedNode.putCount, RetainedNode.find?_put_of_ne,
      RetainedNode.ofWidget, Json.ofInt, Json.ofNat, hborder]
  | some color =>
    simp [node, RetainedNode.picture?, RetainedNode.whole?, RetainedNode.hasBackground, RetainedNode.putTextIf,
      RetainedNode.putText, RetainedNode.putPixel, RetainedNode.putCount, RetainedNode.find?_put_of_ne,
      RetainedNode.ofWidget, Json.ofInt, Json.ofNat, hborder]

theorem nodesShow {p : Props} (hp : schema.read w = .ok p) (hwidth : 0 ≤ w.rect.width) (hheight : 0 ≤ w.rect.height)
    (hdiameter : 2 * w.rect.innerRadius.toInt ≤ 2147483647) :
    kind.NodesShow w ⟨w.rect.cornerDisc, p.paint.isFilled && decide (1 < p.opacity), p.borderWidth != 0⟩ := by
  intro s r
  have hhalf : (diameter w).toInt / 2 = w.rect.innerRadius.toInt := by
    rw [toInt_diameter (innerRadius_nonneg hwidth hheight) hdiameter, Int.mul_ediv_cancel_left _ (by decide)]
  obtain ⟨color, hbackground⟩ := background_eq p.paint s
  refine ⟨_, retained_of_read hp s r, ?_⟩
  rw [picture?_node, hhalf, hbackground]
  cases p.paint.isFilled with
  | true =>
    have hvisible : (!RetainedNode.isClear (opacityText p.paint.opacity)) = decide (1 < p.opacity) :=
      isVisible_opacityText p.opacity
    rw [if_pos rfl, hvisible]
    rfl
  | false => simp [Rect.cornerDisc]

/-- All targets show one circle, with or without an interior and an outline. -/
def IsShownAlike (w : Widget) : Prop :=
  ∃ picture, kind.CallsShow w picture ∧ kind.InstructionsShow w picture ∧ kind.NodesShow w picture

/-- What the instructions show and what the node shows are one picture. -/
theorem IsShownAlike.picture_eq {p : Props} (hp : schema.read w = .ok p) (hwidth : 0 ≤ w.rect.width)
    (hheight : 0 ≤ w.rect.height) (hdiameter : 2 * w.rect.innerRadius.toInt ≤ 2147483647) (h : IsShownAlike w) :
    DiscPicture.mk w.rect.disc p.paint.isFilled true =
      ⟨w.rect.cornerDisc, p.paint.isFilled && decide (1 < p.opacity), p.borderWidth != 0⟩ := by
  obtain ⟨picture, -, hdrawn, hshown⟩ := h
  exact ((instructionsShow hp).unique hdrawn).trans (hshown.unique (nodesShow hp hwidth hheight hdiameter))

/-- A circle in a box that is not turned inside out is the same in all targets exactly if it has an outline, the
circle around the center of its box is the one in the corner, and its interior, if it has one, can be seen. -/
theorem isShownAlike_iff {p : Props} (hp : schema.read w = .ok p) (hwidth : 0 ≤ w.rect.width)
    (hheight : 0 ≤ w.rect.height) (hdiameter : 2 * w.rect.innerRadius.toInt ≤ 2147483647) :
    IsShownAlike w ↔
      p.borderWidth ≠ 0 ∧ w.rect.disc = w.rect.cornerDisc ∧ (p.paint.isFilled = true → 1 < p.opacity) := by
  constructor
  · intro halike
    obtain ⟨hdisc, hinterior, houtline⟩ := DiscPicture.mk.inj (halike.picture_eq hp hwidth hheight hdiameter)
    refine ⟨by simpa using houtline.symm, hdisc, fun hfilled => ?_⟩
    simpa [hfilled] using hinterior.symm
  · rintro ⟨hborder, hdisc, hvisible⟩
    have hcalls := callsShow hp
    have hnodes := nodesShow hp hwidth hheight hdiameter
    have houtline : (p.borderWidth != 0) = true := by simpa using hborder
    have hinterior : (p.paint.isFilled && decide (1 < p.opacity)) = p.paint.isFilled := by
      cases hfilled : p.paint.isFilled with
      | true => simpa using hvisible hfilled
      | false => rfl
    rw [houtline] at hcalls hnodes
    rw [hinterior, ← hdisc] at hnodes
    exact ⟨_, hcalls, instructionsShow hp, hnodes⟩

/-- A filled circle in a box of certain sizes, as the properties come by default otherwise. -/
def filledCircle (width height : Nat) : Widget :=
  { (Widget.make "circle" "shape_circle").withGeometry (.ofNat 0) (.ofNat 0) (.ofNat width) (.ofNat height) with
    props := [("fill", .bool true)] }

theorem read_filledCircle (width height : Nat) : schema.read (filledCircle width height) = .ok { fill := true } := by
  refine isRestorable.read_of_overlay ?_
  simp +decide only [filledCircle, Bag.overlay, Schema.defaults, Schema.bag, schema, Table.ofList, Table.put,
    Json.isNull, List.foldl, reduceIte]

theorem isShownAlike_iff_square :
    0 ≤ (filledCircle 60 60).rect.width ∧ 0 ≤ (filledCircle 60 60).rect.height ∧
      2 * (filledCircle 60 60).rect.innerRadius.toInt ≤ 2147483647 ∧ IsShownAlike (filledCircle 60 60) := by
  have hwidth : 0 ≤ (filledCircle 60 60).rect.width := by decide +kernel
  have hheight : 0 ≤ (filledCircle 60 60).rect.height := by decide +kernel
  have hdiameter : 2 * (filledCircle 60 60).rect.innerRadius.toInt ≤ 2147483647 := by decide +kernel
  have hside : (filledCircle 60 60).rect.width.toInt = 2 * 30 ∧ (filledCircle 60 60).rect.height.toInt = 2 * 30 := by
    decide +kernel
  have hdisc : (filledCircle 60 60).rect.disc = (filledCircle 60 60).rect.cornerDisc :=
    Rect.disc_of_square hside.1 hside.2 (by decide) (by decide +kernel) (by decide +kernel)
  refine ⟨hwidth, hheight, hdiameter, (isShownAlike_iff (read_filledCircle 60 60) hwidth hheight hdiameter).mpr ?_⟩
  exact ⟨by decide, hdisc, fun _ => by decide⟩

/-- In a box that is no square the node shows another circle than the rest. -/
theorem not_forall_isShownAlike :
    ¬ ∀ (w : Widget) (p : Props), schema.read w = .ok p → 0 ≤ w.rect.width → 0 ≤ w.rect.height →
      2 * w.rect.innerRadius.toInt ≤ 2147483647 → IsShownAlike w := by
  intro h
  have hwidth : 0 ≤ (filledCircle 60 30).rect.width := by decide +kernel
  have hheight : 0 ≤ (filledCircle 60 30).rect.height := by decide +kernel
  have hdiameter : 2 * (filledCircle 60 30).rect.innerRadius.toInt ≤ 2147483647 := by decide +kernel
  have hread := read_filledCircle 60 30
  have hpicture := (h _ _ hread hwidth hheight hdiameter).picture_eq hread hwidth hheight hdiameter
  exact absurd (congrArg DiscPicture.disc hpicture) (by decide +kernel)

end Kind.Circle

end Dashboard
