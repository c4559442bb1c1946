import Dashboard.Proofs.Kind.Anchors
import Dashboard.Proofs.Kind.Redrawn
import Dashboard.Proofs.Number.Halves
import Dashboard.Rebuild.Drawing
/-!
# Recovered shapes are drawn again

A shape that is recovered from a call without a marker is drawn by the same call again: the same name, the
same coordinates and a constant for the same color. The box of a circle is found from its center and its
radius and gives both back; a line keeps its ends if it is level or upright, since a line widget has no
other directions. This holds for all coordinates that fit, negative radii and extents among them.
-/

namespace Dashboard

open Text Number

/-! ## Pixels -/

namespace Pixel

/-- A number that is a pixel. -/
theorem toInt_of_ofInt? {i : Int} {p : Pixel} (h : ofInt? i = some p) : p.toInt = i := by
  have hlow : lowestOf 32 = -2147483648 := by decide
  have hhigh : highestOf 32 = 2147483647 := by decide
  rw [ofInt?] at h
  split at h
  · next hrange =>
    simp only [hlow, hhigh, Bool.and_eq_true, decide_eq_true_eq] at hrange
    cases h
    exact Int32.toInt_ofInt_of_le (by omega) (by omega)
  · cases h

end Pixel

/-! ## Calls as they are read -/

/-- A call that draws a shape: its name, its coordinates and the color after them. -/
structure ShapeCall where
  name : String
  coordinates : List Pixel
  argument : Option (List Char)
deriving DecidableEq, Repr

namespace ShapeCall

/-- The names of the calls that draw shapes. -/
def names : List String := ["rectangle", "filled_rectangle", "circle", "filled_circle", "line"]

/-- The number of coordinates of a call: a circle has a center and a radius, the others two points. -/
def arity (name : String) : Nat := if ["circle", "filled_circle"].contains name then 3 else 4

def ofLine? (line : String) : Option ShapeCall := do
  let (name, parts) ← Drawing.call? line.toList
  let coordinates ← (parts.take (arity (String.ofList name))).mapM Drawing.pixel?
  return ⟨String.ofList name, coordinates, parts[arity (String.ofList name)]?⟩

/-- The triple of the color of a call: that of a name, or of six hexadecimal digits, after the word for
constants. Without a color it is black. -/
def rgb? (c : ShapeCall) : Option Rgb :=
  match c.argument with
  | none => some ⟨0, 0, 0⟩
  | some cs =>
    match "color_".toList.isPrefixOf? cs with
    | none => none
    | some name =>
      if name.length = 6 && name.all Drawing.isLowerHex then Color.ofHex? name
      else Color.ofName? (lower (String.ofList name))

/-- Whether a call that draws a line draws it along an axis. -/
def IsStraight (c : ShapeCall) : Prop := ∀ startX startY endX endY, c.name = "line" →
  c.coordinates = [startX, startY, endX, endY] → startX = endX ∨ startY = endY

end ShapeCall

namespace Drawing

/-- The name of the call that draws a shape. -/
def name : Drawing → String
  | .rectangle filled .. => if filled then "filled_rectangle" else "rectangle"
  | .circle filled .. => if filled then "filled_circle" else "circle"
  | .line .. => "line"

def coordinates : Drawing → List Pixel
  | .rectangle _ x y width height _ => [x, y, width, height]
  | .circle _ x y radius _ => [x, y, radius]
  | .line startX startY endX endY _ => [startX, startY, endX, endY]

def color : Drawing → String
  | .rectangle _ _ _ _ _ color => color
  | .circle _ _ _ _ color => color
  | .line _ _ _ _ color => color

theorem name_mem (d : Drawing) : d.name ∈ ShapeCall.names := by
  cases d with
  | rectangle filled => cases filled <;> simp [name, ShapeCall.names]
  | circle filled => cases filled <;> simp [name, ShapeCall.names]
  | line => simp [name, ShapeCall.names]

theorem arguments?_eq_some {n : Nat} {parts : List (List Char)} {pixels : List Pixel} {color : String}
    (h : arguments? n parts = some (pixels, color)) :
    (parts.take n).mapM pixel? = some pixels ∧ color = colorOf parts[n]? := by
  obtain ⟨found, hfound, h⟩ := Option.bind_eq_some_iff.mp h
  have hhead : parts[n]? = (parts.drop n).head? := List.head?_drop.symm
  rw [hhead]
  cases hrest : parts.drop n with
  | nil =>
    rw [hrest] at h
    cases h
    exact ⟨hfound, rfl⟩
  | cons argument rest =>
    rw [hrest] at h
    cases rest with
    | nil =>
      cases h
      exact ⟨hfound, rfl⟩
    | cons other rest => cases h

/-- The call that a drawing was read from. -/
def IsReadFrom (d : Drawing) (name : String) (parts : List (List Char)) : Prop :=
  name = d.name ∧ (parts.take (ShapeCall.arity name)).mapM pixel? = some d.coordinates ∧
    d.color = colorOf parts[ShapeCall.arity name]?

theorem isReadFrom_rectangle {filled : Bool} {parts : List (List Char)} {d : Drawing}
    (h : rectangle? filled parts = some d) :
    d.IsReadFrom (if filled then "filled_rectangle" else "rectangle") parts := by
  unfold rectangle? at h
  split at h
  · next harguments =>
    cases h
    obtain ⟨hpixels, hcolor⟩ := arguments?_eq_some harguments
    cases filled <;> exact ⟨rfl, hpixels, hcolor⟩
  · cases h

theorem isReadFrom_circle {filled : Bool} {parts : List (List Char)} {d : Drawing}
    (h : circle? filled parts = some d) :
    d.IsReadFrom (if filled then "filled_circle" else "circle") parts := by
  unfold circle? at h
  split at h
  · next harguments =>
    cases h
    obtain ⟨hpixels, hcolor⟩ := arguments?_eq_some harguments
    cases filled <;> exact ⟨rfl, hpixels, hcolor⟩
  · cases h

theorem isReadFrom_line {parts : List (List Char)} {d : Drawing} (h : line? parts = some d) :
    d.IsReadFrom "line" parts := by
  unfold line? at h
  split at h
  · next harguments =>
    cases h
    obtain ⟨hpixels, hcolor⟩ := arguments?_eq_some harguments
    exact ⟨rfl, hpixels, hcolor⟩
  · cases h

theorem isReadFrom_of_ofCall? {name : String} {parts : List (List Char)} {d : Drawing}
    (h : ofCall? name parts = some d) : d.IsReadFrom name parts := by
  unfold ofCall? at h
  split at h
  · exact isReadFrom_rectangle h
  · exact isReadFrom_rectangle h
  · exact isReadFrom_circle h
  · exact isReadFrom_circle h
  · exact isReadFrom_line h
  · cases h

/-- A line that is read as a drawing is a call with the name, the coordinates and the color of it. -/
theorem exists_shapeCall {line : String} {d : Drawing} (h : ofLine? line = some d) :
    ∃ c, ShapeCall.ofLine? line = some c ∧ c.name = d.name ∧ c.coordinates = d.coordinates ∧
      d.color = colorOf c.argument := by
  obtain ⟨⟨name, parts⟩, hcall, hd⟩ := Option.bind_eq_some_iff.mp h
  obtain ⟨hname, hpixels, hcolor⟩ := isReadFrom_of_ofCall? hd
  refine ⟨⟨_, _, _⟩, ?_, hname, rfl, hcolor⟩
  rw [ShapeCall.ofLine?, hcall]
  simp only [Option.bind_eq_bind, Option.bind_some, hpixels]
  rfl

/-! ## Colors of calls -/

theorem isAlphanum_of_isLowerHex {c : Char} (h : isLowerHex c = true) : c.isAlphanum = true := by
  simp only [isLowerHex, Bool.or_eq_true, Bool.and_eq_true, decide_eq_true_eq] at h
  rcases h with hdigit | hletter
  · rw [Char.isAlphanum, hdigit, Bool.or_true]
  · have hlow : 97 ≤ c.toNat := hletter.1
    have hhigh : c.toNat ≤ 102 := hletter.2
    apply Color.isAlphanum_of_hexValue?
    rw [Json.hexValue?]
    simp [hlow, hhigh, show ¬ c.toNat ≤ 57 by omega]

theorem isPlain_name {name : List Char} {rgb : Rgb}
    (h : Color.ofName? (lower (String.ofList name)) = some rgb) : Color.IsPlain (String.ofList name) rgb := by
  have hletters := Color.isAlphanum_of_name h
  have htrim : trimChars name = name := trimChars_eq fun c hc => Color.isBlank_of_isAlphanum (hletters c hc)
  constructor
  · rw [Color.rgb?, String.toList_ofList, htrim]
    split
    · next hex =>
      exact absurd (hletters '#' List.mem_cons_self) (by decide)
    · exact h
  · rw [String.toList_ofList]
    exact fun hplus => absurd (hletters '+' hplus) (by decide)

theorem isPlain_hex {name : List Char} {rgb : Rgb} (hall : name.all isLowerHex = true)
    (h : Color.ofHex? name = some rgb) : Color.IsPlain ("#" ++ String.ofList name) rgb := by
  have hchars : ("#" ++ String.ofList name).toList = '#' :: name := by simp
  have hdigits : ∀ c ∈ name, c.isAlphanum = true := fun c hc =>
    isAlphanum_of_isLowerHex (List.all_eq_true.mp hall c hc)
  have htrim : trimChars ('#' :: name) = '#' :: name := trimChars_eq
    (List.forall_mem_cons.mpr ⟨by decide, fun c hc => Color.isBlank_of_isAlphanum (hdigits c hc)⟩)
  constructor
  · rw [Color.rgb?, hchars, htrim]
    exact h
  · rw [hchars]
    intro hplus
    rcases List.mem_cons.mp hplus with hhash | hplus
    · exact absurd hhash (by decide)
    · exact absurd (hdigits '+' hplus) (by decide)

/-- A constant of a color is read as the name or as the digits after its word. -/
theorem colorOf_constant {name : List Char} (hname : name ≠ []) :
    colorOf (some ("color_".toList ++ name)) =
      if name.length = 6 && name.all isLowerHex then "#" ++ String.ofList name else String.ofList name := by
  have hoff : String.ofList ("color_".toList ++ name) ≠ "COLOR_OFF" := fun heq => by
    have hchars := congrArg String.toList heq
    rw [String.toList_ofList] at hchars
    exact absurd (List.cons.inj hchars).1 (by decide)
  have hon : String.ofList ("color_".toList ++ name) ≠ "COLOR_ON" := fun heq => by
    have hchars := congrArg String.toList heq
    rw [String.toList_ofList] at hchars
    exact absurd (List.cons.inj hchars).1 (by decide)
  have hafter : afterStart? "color_" (String.ofList ("color_".toList ++ name)) = some (String.ofList name) := by
    have hchars : (String.ofList ("color_".toList ++ name)).toList = "color_".toList ++ name :=
      String.toList_ofList
    rw [afterStart?, hchars]
    rfl
  have hempty : (String.ofList name).isEmpty = false := by
    refine Bool.eq_false_iff.mpr fun hempty => hname ?_
    have hchars := congrArg String.toList (String.isEmpty_iff.mp hempty)
    rwa [String.toList_ofList] at hchars
  rw [colorOf, colorOfConstant, if_neg hoff, if_neg hon, hafter]
  dsimp only
  rw [hempty, String.toList_ofList, ← String.length_toList, String.toList_ofList]
  rfl

/-- The color that a drawing takes from a call has the triple of that of the call. -/
theorem isPlain_colorOf {c : ShapeCall} {rgb : Rgb} (h : c.rgb? = some rgb) :
    Color.IsPlain (colorOf c.argument) rgb := by
  rw [ShapeCall.rgb?] at h
  cases hargument : c.argument with
  | none =>
    rw [hargument] at h
    cases h
    exact ⟨by decide, by decide⟩
  | some cs =>
    rw [hargument] at h
    dsimp only at h
    split at h
    · cases h
    · next name hname =>
      obtain rfl := eq_append_of_isPrefixOf? hname
      have hne : name ≠ [] := by
        rintro rfl
        cases h
      rw [colorOf_constant hne]
      split at h
      · next hhex =>
        rw [if_pos hhex]
        exact isPlain_hex (Bool.and_eq_true_iff.mp hhex).2 h
      · next hhex =>
        rw [if_neg hhex]
        exact isPlain_name h

/-! ## Boxes -/

theorem box?_eq_some {x y width height : Int} {r : Rect} (h : box? x y width height = some r) :
    r.x.toInt = x ∧ r.y.toInt = y ∧ r.width.toInt = width ∧ r.height.toInt = height := by
  obtain ⟨left, hleft, h⟩ := Option.bind_eq_some_iff.mp h
  obtain ⟨top, htop, h⟩ := Option.bind_eq_some_iff.mp h
  obtain ⟨across, hacross, h⟩ := Option.bind_eq_some_iff.mp h
  obtain ⟨down, hdown, h⟩ := Option.bind_eq_some_iff.mp h
  cases h
  exact ⟨Pixel.toInt_of_ofInt? hleft, Pixel.toInt_of_ofInt? htop, Pixel.toInt_of_ofInt? hacross,
    Pixel.toInt_of_ofInt? hdown⟩

/-- The box around a circle gives its center and its radius back, whatever the sign of the radius. -/
theorem circle_of_box {x y radius : Pixel} {r : Rect}
    (h : box? (x.toInt - radius.toInt) (y.toInt - radius.toInt) (2 * radius.toInt) (2 * radius.toInt) =
      some r) : r.center.1 = x ∧ r.center.2 = y ∧ r.innerRadius = radius := by
  obtain ⟨hx, hy, hwidth, hheight⟩ := box?_eq_some h
  have hmiddle : ∀ (edge extent p : Pixel), edge.toInt = p.toInt - radius.toInt →
      extent.toInt = 2 * radius.toInt → Rect.middle edge extent = p := by
    intro edge extent p hedge hextent
    have hsum : 2 * edge.toInt + extent.toInt = 2 * p.toInt := by omega
    rw [Rect.middle, hsum, Pixel.half_two_mul, Pixel.clamp_toInt]
  refine ⟨hmiddle r.x r.width x hx hwidth, hmiddle r.y r.height y hy hheight, ?_⟩
  rw [Rect.innerRadius, hwidth, hheight, Int.min_self, Pixel.half_two_mul, Pixel.clamp_toInt]

/-- The extent of a line gives its end back. -/
theorem add_extent {start extent stop : Pixel} (h : extent.toInt = stop.toInt - start.toInt) :
    Pixel.add start extent = stop := by
  have hsum : start.toInt + extent.toInt = stop.toInt := by omega
  rw [Pixel.add, hsum, Pixel.clamp_toInt]

/-- The direction of a line, which is the greater of its extents. -/
def orientation (r : Rect) : Kind.Line.Orientation :=
  if r.width.toInt.natAbs < r.height.toInt.natAbs then .vertical else .horizontal

theorem name_orientation (r : Rect) : (orientation r).name =
    if r.width.toInt.natAbs < r.height.toInt.natAbs then "vertical" else "horizontal" := by
  rw [orientation]
  split <;> rfl

/-- The end of a line along an axis is that of the line widget in its box. -/
theorem farPoint_of_box {startX startY endX endY : Pixel} {r : Rect}
    (h : box? startX.toInt startY.toInt (endX.toInt - startX.toInt) (endY.toInt - startY.toInt) = some r)
    (hstraight : startX = endX ∨ startY = endY) :
    r.x = startX ∧ r.y = startY ∧ Kind.Line.farPoint (orientation r) r = (endX, endY) := by
  obtain ⟨hx, hy, hwidth, hheight⟩ := box?_eq_some h
  obtain rfl : r.x = startX := Int32.toInt_inj.mp hx
  obtain rfl : r.y = startY := Int32.toInt_inj.mp hy
  have hright : r.right = endX := add_extent hwidth
  have hbottom : r.bottom = endY := add_extent hheight
  refine ⟨rfl, rfl, ?_⟩
  unfold orientation
  split
  · next hless =>
    have hlevel : r.x = endX := hstraight.resolve_right fun heq => by
      rw [heq, Int.sub_self] at hheight
      omega
    exact Prod.ext hlevel hbottom
  · next hless =>
    have hlevel : r.y = endY := by
      rcases hstraight with heq | heq
      · rw [heq, Int.sub_self] at hwidth
        exact Int32.toInt_inj.mp (by omega)
      · exact heq
    exact Prod.ext hright hlevel

/-! ## Widgets -/

/-- What the widget of a drawing has of it. -/
theorem widget?_eq_some {d : Drawing} {ordinal : Nat} {w : Widget} (h : d.widget? ordinal = some w) :
    ∃ r, d.rect? = some r ∧ w.rect = r ∧ w.kind = d.kind ∧ w.props = d.props r := by
  obtain ⟨r, hr, rfl⟩ := Option.map_eq_some_iff.mp h
  refine ⟨r, hr, ?_, rfl, rfl⟩
  simp only [Widget.rect, Pixel.ofBinary64_toBinary64]

variable {d : Drawing} {ordinal : Nat} {w : Widget} {rgb : Rgb}

/-- The widget of a drawing in a plain color draws it again. -/
theorem redraws (h : d.widget? ordinal = some w) (hcolor : Color.IsPlain d.color rgb)
    (hstraight : ∀ startX startY endX endY, d.name = "line" →
      d.coordinates = [startX, startY, endX, endY] → startX = endX ∨ startY = endY) :
    ∃ k, Kind.builtin? w.kind = some k ∧ k.Redraws w d.name d.coordinates rgb := by
  obtain ⟨r, hr, hrect, hkind, hprops⟩ := widget?_eq_some h
  rw [hkind]
  cases d with
  | rectangle filled x y width height color =>
    obtain rfl := Option.some.inj hr
    have hdrawn := Kind.Rectangle.redraws (Kind.Rectangle.read_recovered hprops) hcolor
    rw [hrect] at hdrawn
    exact ⟨_, rfl, hdrawn⟩
  | circle filled x y radius color =>
    obtain ⟨hx, hy, hradius⟩ := circle_of_box hr
    have hdrawn := Kind.Circle.redraws (Kind.Circle.read_recovered hprops) hcolor
    rw [hrect, hx, hy, hradius] at hdrawn
    exact ⟨_, rfl, hdrawn⟩
  | line startX startY endX endY color =>
    obtain ⟨hx, hy, hfar⟩ := farPoint_of_box hr (hstraight _ _ _ _ rfl rfl)
    have hread : Kind.Line.schema.read w = .ok (Kind.Line.recovered (orientation r) color) := by
      apply Kind.Line.read_recovered
      rw [hprops, name_orientation]
      rfl
    have hdrawn := Kind.Line.redraws hread hcolor
    rw [hrect, hx, hy, hfar] at hdrawn
    exact ⟨_, rfl, hdrawn⟩

end Drawing

/-- A recovered shape draws itself again. If a call without a marker has no color or a constant of a known
one, and is a line along an axis if it is a line, then the widget that is recovered from it has drawing code,
whose first call has the same name and the same coordinates and a constant of the same color. -/
theorem Widget.recover?_redraws {line : String} {ordinal : Nat} {w : Widget}
    (h : recover? line ordinal = some w) :
    ∃ c, ShapeCall.ofLine? line = some c ∧ c.name ∈ ShapeCall.names ∧
      ∀ rgb, c.rgb? = some rgb → c.IsStraight →
        ∃ k, Kind.builtin? w.kind = some k ∧ k.Redraws w c.name c.coordinates rgb := by
  obtain ⟨d, hd, hw⟩ := Option.bind_eq_some_iff.mp h
  obtain ⟨c, hc, hname, hcoordinates, hcolor⟩ := Drawing.exists_shapeCall hd
  refine ⟨c, hc, hname ▸ d.name_mem, fun rgb hrgb hstraight => ?_⟩
  have hplain : Color.IsPlain d.color rgb := hcolor ▸ Drawing.isPlain_colorOf hrgb
  rw [ShapeCall.IsStraight, hname, hcoordinates] at hstraight
  rw [hname, hcoordinates]
  exact Drawing.redraws hw hplain hstraight

/-- A circle of a negative radius, in a color of six digits. -/
def invertedCircle : String := "  it.circle(5, -7, -3, color_00ff7f);"

theorem Widget.recover?_redraws_inverted : ∃ w k lines after constant,
    recover? invertedCircle 0 = some w ∧ Kind.builtin? w.kind = some k ∧
      Emission.runWith (k.procedural ⟨.procedural, false, {}⟩ w) {} = (.ok lines, after) ∧
        (Call.ofLines lines).head? = some ⟨"circle", ["5", "-7", "-3", constant]⟩ ∧
          Table.find? after.colors constant = some ⟨0, 255, 127⟩ := by
  have hsome : (recover? invertedCircle 0).isSome := by decide +kernel
  obtain ⟨w, hw⟩ := Option.isSome_iff_exists.mp hsome
  obtain ⟨c, hc, -, hredraws⟩ := recover?_redraws hw
  have hread : ShapeCall.ofLine? invertedCircle =
      some ⟨"circle", [5, -7, -3], some "color_00ff7f".toList⟩ := by decide +kernel
  obtain rfl := Option.some.inj (hread.symm.trans hc)
  have hrgb : ShapeCall.rgb? ⟨"circle", [5, -7, -3], some "color_00ff7f".toList⟩ = some ⟨0, 255, 127⟩ := by
    decide +kernel
  obtain ⟨k, hk, hcalls⟩ := hredraws _ hrgb fun _ _ _ _ hline => absurd hline (by decide)
  obtain ⟨lines, after, constant, hrun, hfirst, hfind⟩ := hcalls ⟨.procedural, false, {}⟩ {} .empty
  have hnumbers : [(5 : Pixel), -7, -3].map Kind.pixelText = ["5", "-7", "-3"] := by decide +kernel
  rw [hnumbers] at hfirst
  exact ⟨w, k, lines, after, constant, hw, hk, hrun, hfirst, hfind⟩

end Dashboard
