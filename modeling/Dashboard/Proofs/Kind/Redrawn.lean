import Dashboard.Proofs.Kind.Calls
import Dashboard.Proofs.Kind.Constants
import Dashboard.Proofs.Kind.Restored
/-!
# The first call of a plain shape

The drawing code of a rectangle, of a circle or of a line with few properties of its own begins with one call,
whose coordinates are those of the box of the widget. Its color is a constant that is registered with the
triple of the color, whatever colors were registered before.
-/

namespace Dashboard

open Text Number Emission Statement

/-! ## Colors -/

namespace Color

theorem rgb?_trim (value : String) : rgb? (trim value) = rgb? value := by
  rw [rgb?, rgb?, trim, String.toList_ofList, trimChars_trimChars]

theorem lower_trim_of_sameLetters {value word : String} (h : sameLetters (trim value) word = true) :
    lower (trim value) = lower word := eq_of_beq h

/-- Neither of the words that stand for other colors has a triple. -/
theorem sameLetters_eq_false {value : String} {rgb : Rgb} (h : rgb? value = some rgb) {word : String}
    (hword : (lower word).toList.head? ≠ some '#') (hnone : ofName? (lower word) = none) :
    sameLetters (trim value) word = false := by
  refine Bool.eq_false_iff.mpr fun hsame => ?_
  have hlower := lower_trim_of_sameLetters hsame
  rcases rgb?_cases h with ⟨hex, htrim, -⟩ | ⟨hname, -⟩
  · have hhead : (lower (trim value)).toList.head? = some '#' := by
      rw [lower, trim, htrim, String.toList_ofList, String.toList_ofList, List.map_cons]
      rfl
    rw [hlower] at hhead
    exact hword hhead
  · rw [hlower, hnone] at hname
    cases hname

/-- A color with a triple is drawn as it is. -/
theorem resolve?_of_rgb? {value : String} {rgb : Rgb} (h : rgb? value = some rgb) (role : ColorRole)
    (dark : Bool) : resolve? value role dark = some (trim value) := by
  have htransparent : sameLetters (trim value) transparent = false :=
    sameLetters_eq_false h (by decide) (by decide)
  have htheme : sameLetters (trim value) themeAuto = false := sameLetters_eq_false h (by decide) (by decide)
  have hempty : (trim value).isEmpty = false := by
    refine Bool.eq_false_iff.mpr fun hempty => ?_
    rw [← rgb?_trim, String.isEmpty_iff.mp hempty] at h
    cases h
  simp only [resolve?, htransparent, htheme, hempty, Bool.false_eq_true, if_false, Bool.or_self]

theorem effective_empty (base : String) : effective (some "") base = base := rfl

end Color

/-- A color with a triple and without a plus sign. -/
structure Color.IsPlain (value : String) (rgb : Rgb) : Prop where
  triple : Color.rgb? value = some rgb
  plain : '+' ∉ value.toList

theorem Color.IsPlain.trim {value : String} {rgb : Rgb} (h : IsPlain value rgb) :
    IsPlain (Text.trim value) rgb where
  triple := (Color.rgb?_trim value).trans h.triple
  plain := by
    rw [Text.trim, String.toList_ofList]
    exact fun hmem => h.plain (mem_of_mem_trimChars hmem)

namespace Resources

variable {value : String} {rgb : Rgb} {r : Resources}

theorem fst_addColor_of_isPlain (h : Color.IsPlain value rgb) (r : Resources) :
    (r.addColor value).1 = Colors.constantName value := by
  rw [addColor, Colors.constant_of_rgb? h.triple]

theorem isRegistered_addColor (hr : r.colors.IsRegistered) (value : String) :
    (r.addColor value).2.colors.IsRegistered := hr.constant value

theorem find?_addColor (hr : r.colors.IsRegistered) (h : Color.IsPlain value rgb) :
    Table.find? (r.addColor value).2.colors (Colors.constantName value) = some rgb :=
  hr.find?_constant h.triple h.plain

theorem colorConstant?_of_isPlain (h : Color.IsPlain value rgb) (s : Setting) (role : ColorRole)
    (r : Resources) : colorConstant? s value role r =
      (some (Colors.constantName (trim value)), (r.addColor (trim value)).2) := by
  rw [colorConstant?, Setting.color?, Color.resolve?_of_rgb? h.triple, ← fst_addColor_of_isPlain h.trim r]

theorem colorConstant_of_isPlain (h : Color.IsPlain value rgb) (s : Setting) (role : ColorRole)
    (r : Resources) : colorConstant s value role r =
      (Colors.constantName (trim value), (r.addColor (trim value)).2) := by
  rw [colorConstant, colorConstant?_of_isPlain h]

end Resources

/-! ## Shapes -/

/-- Whatever colors were registered before, the drawing code of a widget begins with a certain call: its
coordinates are given, and its color is a constant that is registered with a given triple. -/
def WidgetKind.Redraws (k : WidgetKind) (w : Widget) (name : String) (coordinates : List Pixel)
    (rgb : Rgb) : Prop :=
  ∀ (s : Setting) (r : Resources), r.colors.IsRegistered → ∃ lines after constant,
    runWith (k.procedural s w) r = (.ok lines, after) ∧
      (Call.ofLines lines).head? = some ⟨name, coordinates.map Kind.pixelText ++ [constant]⟩ ∧
        Table.find? after.colors constant = some rgb

namespace Kind

variable {w : Widget} {rgb : Rgb}

theorem isName_constantName (color : String) : IsName (Colors.constantName color) :=
  (isColorName_constantName color).isName

theorem ofLine?_shape (name : String) (hname : IsWord name.toList) (coordinates : List Pixel)
    {color : String} (hcolor : IsName color) : Call.ofLine? (call name (coordinates.map pixelText ++ [color])) =
      some ⟨name, coordinates.map pixelText ++ [color]⟩ := by
  apply Call.ofLine?_call hname (by simp)
  refine List.forall_mem_append.mpr ⟨fun a ha => ?_, List.forall_mem_singleton.mpr ?_⟩
  · obtain ⟨p, -, rfl⟩ := List.mem_map.mp ha
    exact Call.isWhole_pixelText p
  · exact Call.isWhole_of_isName hcolor

namespace Shape

/-- A shape of one plain color has one constant, for its interior and for its outline. -/
theorem Paint.register_of_isPlain {p : Paint} (hfill : p.fillOverride = "") (houtline : p.outlineOverride = "")
    (h : Color.IsPlain p.color rgb) (s : Setting) {r : Resources} (hr : r.colors.IsRegistered) :
    ∃ after, runWith (p.register s) r =
        (.ok (if p.fill then some (Colors.constantName (trim p.color)) else none,
          Colors.constantName (trim p.color)), after) ∧
      Table.find? after.colors (Colors.constantName (trim p.color)) = some rgb := by
  have hfillColor : p.fillColor = p.color := by rw [fillColor, hfill, Color.effective_empty]
  have houtlineColor : p.outlineColor = p.color := by rw [outlineColor, houtline, Color.effective_empty]
  rw [register, hfillColor, houtlineColor]
  cases p.fill with
  | false =>
    refine ⟨(r.addColor (trim p.color)).2, ?_, Resources.find?_addColor hr h.trim⟩
    simp only [Bool.false_eq_true, if_false, runWith_bind, runWith_pure, runWith_register,
      Resources.colorConstant_of_isPlain h]
  | true =>
    have hfilled := Resources.isRegistered_addColor hr (trim p.color)
    refine ⟨((r.addColor (trim p.color)).2.addColor (trim p.color)).2, ?_,
      Resources.find?_addColor hfilled h.trim⟩
    simp only [if_true, runWith_bind, runWith_pure, runWith_register, Resources.colorConstant?_of_isPlain h,
      Resources.colorConstant_of_isPlain h]

theorem ofLines_outline (b : Block) (single nested : String) :
    Call.ofLines (outline b 1 single nested).finish = b.calls ++ (Call.ofLine? single).toList := by
  have hone : outline b 1 single nested = b.line single := rfl
  rw [hone, Block.ofLines_finish, Block.calls_line]

/-- The block of a shape with an outline of one pixel. The interior comes first, if it is painted. -/
def thinBlock (b : Block) (filled single : String) (coordinates : List Pixel) (nested : String → String)
    (fill : Option String) (color : String) : List String :=
  let interior := match fill with
    | some paint => b.line (call filled (coordinates.map pixelText ++ [paint]))
    | none => b
  (outline interior 1 (call single (coordinates.map pixelText ++ [color])) (nested color)).finish

variable {b : Block} {filled single color : String} {coordinates : List Pixel} (nested : String → String)

theorem head?_thinBlock (hb : b.calls = []) (hfilled : IsWord filled.toList) (hsingle : IsWord single.toList)
    (hcolor : IsName color) (fill : Bool) :
    (Call.ofLines (thinBlock b filled single coordinates nested (if fill then some color else none)
      color)).head? =
        some ⟨if fill then filled else single, coordinates.map pixelText ++ [color]⟩ := by
  have hinterior := ofLine?_shape filled hfilled coordinates hcolor
  have houtline := ofLine?_shape single hsingle coordinates hcolor
  unfold thinBlock
  cases fill with
  | false =>
    rw [ofLines_outline, houtline]
    simp [hb]
  | true =>
    rw [ofLines_outline, if_pos rfl, Block.calls_line, hinterior, hb]
    rfl

/-- A shape with an outline of one pixel begins with a call in the constant of its one color. -/
theorem redraws {k : WidgetKind} {p : Paint} (hb : b.calls = []) (hfilled : IsWord filled.toList)
    (hsingle : IsWord single.toList) (hfill : p.fillOverride = "") (houtline : p.outlineOverride = "")
    (h : Color.IsPlain p.color rgb) (hdrawn : ∀ s r, runWith (k.procedural s w) r = runWith
      (p.register s >>= fun c => pure (thinBlock b filled single coordinates nested c.1 c.2)) r) :
    k.Redraws w (if p.fill then filled else single) coordinates rgb := by
  intro s r hr
  obtain ⟨after, hregister, hfind⟩ := Paint.register_of_isPlain hfill houtline h s hr
  have hname := isName_constantName (trim p.color)
  refine ⟨_, after, _, ?_, head?_thinBlock nested hb hfilled hsingle hname p.fill, hfind⟩
  rw [hdrawn, runWith_bind, hregister]
  rfl

end Shape

namespace Rectangle

/-- The properties of a recovered rectangle. -/
def recovered (fill : Bool) (color : String) : Props := { fill, color }

theorem read_recovered {fill : Bool} {color : String}
    (hw : w.props = Table.ofList [("fill", .bool fill), ("color", .string color)]) :
    schema.read w = .ok (recovered fill color) := by
  apply isRestorable.read_of_overlay
  rw [hw]
  simp +decide only [recovered, Bag.overlay, Schema.defaults, Schema.bag, schema, Table.ofList, Table.put,
    Json.isNull, List.foldl, reduceIte]

theorem redraws {fill : Bool} {color : String} (hp : schema.read w = .ok (recovered fill color))
    (h : Color.IsPlain color rgb) : kind.Redraws w (if fill then "filled_rectangle" else "rectangle")
      [w.rect.x, w.rect.y, w.rect.width, w.rect.height] rgb := by
  have hstart := Block.calls_start w (schema.bag (recovered fill color)) aliases
  let nested : String → String := fun color => call "rectangle" (nestedArguments w.rect ++ [color])
  refine Shape.redraws (p := (recovered fill color).paint) nested hstart (by decide) (by decide) rfl rfl h
    fun s r => ?_
  change runWith (procedural s w) r = _
  rw [procedural, runWith_bind, runWith_ofExcept, Schema.readForExport_eq hp]
  rfl

end Rectangle

namespace Circle

/-- The properties of a recovered circle. -/
def recovered (fill : Bool) (color : String) : Props := { fill, color }

theorem read_recovered {fill : Bool} {color : String}
    (hw : w.props = Table.ofList [("fill", .bool fill), ("color", .string color)]) :
    schema.read w = .ok (recovered fill color) := by
  apply isRestorable.read_of_overlay
  rw [hw]
  simp +decide only [recovered, Bag.overlay, Schema.defaults, Schema.bag, schema, Table.ofList, Table.put,
    Json.isNull, List.foldl, reduceIte]

theorem redraws {fill : Bool} {color : String} (hp : schema.read w = .ok (recovered fill color))
    (h : Color.IsPlain color rgb) : kind.Redraws w (if fill then "filled_circle" else "circle")
      [w.rect.center.1, w.rect.center.2, w.rect.innerRadius] rgb := by
  have hstart := Block.calls_start w (schema.bag (recovered fill color)) aliases
  let nested : String → String := fun color =>
    call "circle" (centerArguments w.rect ++ [pixelText w.rect.innerRadius ++ " - i", color])
  refine Shape.redraws (p := (recovered fill color).paint) nested hstart (by decide) (by decide) rfl rfl h
    fun s r => ?_
  change runWith (procedural s w) r = _
  rw [procedural, runWith_bind, runWith_ofExcept, Schema.readForExport_eq hp]
  rfl

end Circle

namespace Line

/-- The properties of a recovered line. -/
def recovered (orientation : Orientation) (color : String) : Props := { strokeWidth := 1, color, orientation }

theorem read_recovered {orientation : Orientation} {color : String}
    (hw : w.props = Table.ofList [("stroke_width", .ofNat 1), ("orientation", .string orientation.name),
      ("color", .string color)]) : schema.read w = .ok (recovered orientation color) := by
  apply isRestorable.read_of_overlay
  rw [hw]
  simp +decide only [recovered, Bag.overlay, Schema.defaults, Schema.bag, schema, Table.ofList, Table.put,
    Json.isNull, count, List.foldl, reduceIte]
  rfl

/-- The far end of a line widget. -/
def farPoint (orientation : Orientation) (r : Rect) : Pixel × Pixel :=
  match orientation with
  | .horizontal => (r.right, r.y)
  | .vertical => (r.x, r.bottom)

theorem redraws {orientation : Orientation} {color : String}
    (hp : schema.read w = .ok (recovered orientation color)) (h : Color.IsPlain color rgb) :
    kind.Redraws w "line"
      [w.rect.x, w.rect.y, (farPoint orientation w.rect).1, (farPoint orientation w.rect).2] rgb := by
  intro s r hr
  have hname := isName_constantName (trim color)
  let b := Block.start w (schema.bag (recovered orientation color)) aliases
  refine ⟨(b.line (statement (recovered orientation color) w.rect (Colors.constantName (trim color)))).finish,
    (r.addColor (trim color)).2, _, ?_, ?_, Resources.find?_addColor hr h.trim⟩
  · change runWith (procedural s w) r = _
    rw [procedural, runWith_bind, runWith_ofExcept, Schema.readForExport_eq hp]
    simp only [runWith_bind, runWith_register, runWith_pure, recovered, Resources.colorConstant_of_isPlain h]
    rfl
  · have hcall := ofLine?_shape "line" (by decide)
      [w.rect.x, w.rect.y, (farPoint orientation w.rect).1, (farPoint orientation w.rect).2] hname
    have hstatement : statement (recovered orientation color) w.rect (Colors.constantName (trim color)) =
        call "line" ([w.rect.x, w.rect.y, (farPoint orientation w.rect).1,
          (farPoint orientation w.rect).2].map pixelText ++ [Colors.constantName (trim color)]) := by
      cases orientation <;> rfl
    rw [Block.ofLines_finish, Block.calls_line, hstatement, hcall, Block.calls_start]
    rfl

end Line

end Kind

end Dashboard
