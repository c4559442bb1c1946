import Dashboard.Proofs.Kind.Arithmetic
import Dashboard.Proofs.Kind.Discs
import Dashboard.Proofs.Kind.Paints
/-!
# The box of a rectangle widget

What the drawing code, the instructions and the node of a rectangle widget show: a box, what its interior is
painted with and what its outline is drawn with. With usual colors and a box that ends within the range of
pixels, the three show one picture under each theme.
-/

namespace Dashboard

open Text Number Emission Statement

structure Box where
  x : Int
  y : Int
  width : Int
  height : Int
deriving DecidableEq, Repr

structure BoxPicture where
  box : Box
  fill : Option Rgb
  outline : Option Rgb
deriving DecidableEq, Repr

namespace Call

/-- What an argument is for the outermost of nested outlines, whose index is zero. -/
def outermost? (argument : String) : Option Int :=
  let number := argument.toList.takeWhile (· ≠ ' ')
  let rest := argument.toList.dropWhile (· ≠ ' ')
  if ["", " + i", " - 2 * i"].contains (String.ofList rest) then (Drawing.pixel? number).map Int32.toInt else none

def box? (c : Call) : Option Box :=
  match c.arguments with
  | [x, y, width, height, _] => do
    return ⟨← outermost? x, ← outermost? y, ← outermost? width, ← outermost? height⟩
  | _ => none

/-- The triple that the color of a call is bound to. -/
def rgb? (colors : Table Rgb) (c : Call) : Option Rgb := c.arguments[4]?.bind (Table.find? colors)

/-- Calls that paint a box and draw it, or one of both, or nothing. -/
structure ShowBox (colors : Table Rgb) (cs : List Call) (p : BoxPicture) : Prop where
  box : ∀ c ∈ cs, c.name ∈ ["filled_rectangle", "rectangle"] ∧ c.box? = some p.box
  fill : (cs.filter (·.name = "filled_rectangle")).map (rgb? colors) = (p.fill.map some).toList
  outline : (cs.filter (·.name = "rectangle")).map (rgb? colors) = (p.outline.map some).toList

variable {colors : Table Rgb} {box : Box}

theorem showBox_nil (colors : Table Rgb) (box : Box) : ShowBox colors [] ⟨box, none, none⟩ :=
  ⟨fun _ h => absurd h List.not_mem_nil, rfl, rfl⟩

theorem showBox_interior {arguments : List String} {rgb : Rgb}
    (hbox : (Call.mk "filled_rectangle" arguments).box? = some box)
    (hcolor : (Call.mk "filled_rectangle" arguments).rgb? colors = some rgb) :
    ShowBox colors [⟨"filled_rectangle", arguments⟩] ⟨box, some rgb, none⟩ := by
  constructor <;> simp [hbox, hcolor]

theorem showBox_outline {arguments : List String} {rgb : Rgb}
    (hbox : (Call.mk "rectangle" arguments).box? = some box)
    (hcolor : (Call.mk "rectangle" arguments).rgb? colors = some rgb) :
    ShowBox colors [⟨"rectangle", arguments⟩] ⟨box, none, some rgb⟩ := by
  constructor <;> simp [hbox, hcolor]

/-- An interior and an outline of one box. -/
theorem ShowBox.append {inside around : List Call} {fill outline : Option Rgb}
    (hinside : ShowBox colors inside ⟨box, fill, none⟩) (haround : ShowBox colors around ⟨box, none, outline⟩) :
    ShowBox colors (inside ++ around) ⟨box, fill, outline⟩ where
  box := fun c hc => (List.mem_append.mp hc).elim (hinside.box c) (haround.box c)
  fill := by
    rw [List.filter_append, List.map_append, hinside.fill, haround.fill]
    exact List.append_nil _
  outline := by
    rw [List.filter_append, List.map_append, hinside.outline, haround.outline]
    rfl

end Call

/-- The box of a widget, with its extents as they are. -/
def Rect.box (r : Rect) : Box := ⟨r.x.toInt, r.y.toInt, r.width.toInt, r.height.toInt⟩

def Instruction.boxPicture? : Instruction → Option BoxPicture
  | .rectangle d => do
    let fill ← d.fill.mapM Color.rgb?
    let outline ← (if d.width = 0 then none else some d.outline).mapM Color.rgb?
    return ⟨⟨d.edges.left.toInt, d.edges.top.toInt, d.edges.right.toInt - d.edges.left.toInt,
      d.edges.bottom.toInt - d.edges.top.toInt⟩, fill, outline⟩
  | _ => none

namespace RetainedNode

def text? (key : String) (n : RetainedNode) : Option String :=
  match n.find? key with
  | some (.string s) => some s
  | _ => none

def boxPicture? (n : RetainedNode) : Option BoxPicture := do
  let x ← n.whole? "x"
  let y ← n.whole? "y"
  let width ← n.whole? "width"
  let height ← n.whole? "height"
  let border ← n.whole? "border_width"
  let color ← n.text? "border_color"
  let fill ← (n.text? "bg_color").mapM Rgb.ofNumber?
  let outline ← (if border = 0 then none else some color).mapM Rgb.ofNumber?
  return ⟨⟨x, y, width, height⟩, fill, outline⟩

end RetainedNode

namespace WidgetKind

/-- What the drawing code of a widget shows under a theme, with the constants that are bound in the end. -/
def CallsShowBox (k : WidgetKind) (w : Widget) (dark : Bool) (p : BoxPicture) : Prop :=
  ∀ s r, s.dark = dark → r.colors.IsRegistered → ∃ lines after,
    runWith (k.procedural s w) r = (.ok lines, after) ∧ Call.ShowBox after.colors (Call.ofLines lines) p

def InstructionsShowBox (k : WidgetKind) (w : Widget) (dark : Bool) (p : BoxPicture) : Prop :=
  ∀ s r f, s.dark = dark → ∃ i, k.declarative s r f w = .ok [i] ∧ i.boxPicture? = some p

def NodesShowBox (k : WidgetKind) (w : Widget) (dark : Bool) (p : BoxPicture) : Prop :=
  ∀ s r, s.dark = dark → ∃ n, k.retained s r w = .ok [n] ∧ n.boxPicture? = some p

end WidgetKind

namespace Kind.Rectangle

variable {w : Widget} {p : Props} {s : Setting} {dark : Bool}

def pictureIn (p : Props) (dark : Bool) (r : Rect) : BoxPicture :=
  ⟨r.box, p.paint.interior? dark,
    if p.borderWidth = 0 then none else Color.painted? p.paint.outlineColor .outline dark⟩

/-! ## Calls -/

/-- The calls that draw a rectangle: its interior, if it has a color, and its outline, if it has a width. -/
def drawn (p : Props) (r : Rect) (fill : Option String) (outline : String) : List Call :=
  Shape.drawn fill p.borderWidth (fun color => ⟨"filled_rectangle", boxArguments r ++ [color]⟩)
    ⟨"rectangle", boxArguments r ++ [outline]⟩ ⟨"rectangle", nestedArguments r ++ [outline]⟩

theorem ofLine?_box (name : String) (hname : IsWord name.toList) (r : Rect) {color : String} (hcolor : IsName color) :
    Call.ofLine? (call name (boxArguments r ++ [color])) = some ⟨name, boxArguments r ++ [color]⟩ :=
  ofLine?_shape name hname [r.x, r.y, r.width, r.height] hcolor

theorem ofLine?_nested (r : Rect) {color : String} (hcolor : IsName color) :
    Call.ofLine? (call "rectangle" (nestedArguments r ++ [color])) =
      some ⟨"rectangle", nestedArguments r ++ [color]⟩ := by
  have hshifted : ∀ (pixel : Pixel) (rest : String), (rest.toList.all fun c => c != '"' && c != ',') = true →
      Call.IsWhole (pixelText pixel ++ rest).toList := by
    intro pixel rest hrest
    rw [String.toList_append]
    exact (Call.isWhole_pixelText pixel).append (Call.isWhole_all hrest)
  refine Call.ofLine?_call (by decide) (by simp) ?_
  simp only [nestedArguments, List.cons_append, List.nil_append, List.forall_mem_cons, List.not_mem_nil,
    false_implies, implies_true, and_true]
  exact ⟨hshifted _ _ (by decide), hshifted _ _ (by decide), hshifted _ _ (by decide), hshifted _ _ (by decide),
    Call.isWhole_of_isName hcolor⟩

theorem ofLines_block (p : Props) (w : Widget) {fill : Option String} {outline : String}
    (hfill : ∀ color ∈ fill, IsName color) (houtline : IsName outline) :
    Call.ofLines (block p w fill outline) = drawn p w.rect fill outline :=
  Shape.ofLines_block (Block.calls_start w (schema.bag p) aliases)
    (fun color hcolor => ofLine?_box "filled_rectangle" (by decide) w.rect (hfill color hcolor))
    (ofLine?_box "rectangle" (by decide) w.rect houtline) (ofLine?_nested w.rect houtline) p.borderWidth

theorem outermost?_pixelText (pixel : Pixel) {rest : String} (hrest : rest ∈ ["", " + i", " - 2 * i"]) :
    Call.outermost? (pixelText pixel ++ rest) = some pixel.toInt := by
  have hend : rest.toList.takeWhile (· ≠ ' ') = [] := by
    revert rest
    decide
  have htake := takeWhile_pixelText pixel hend
  have hdrop : ((pixelText pixel).toList ++ rest.toList).dropWhile (· ≠ ' ') = rest.toList := by
    have hsplit := List.takeWhile_append_dropWhile (p := (· ≠ ' ')) (l := (pixelText pixel).toList ++ rest.toList)
    rw [htake] at hsplit
    exact List.append_cancel_left hsplit
  rw [Call.outermost?, String.toList_append, htake, hdrop, String.ofList_toList, Drawing.pixel?_pixelText,
    if_pos (List.contains_iff_mem.mpr hrest)]
  rfl

theorem box?_boxArguments (name : String) (r : Rect) (color : String) :
    (Call.mk name (boxArguments r ++ [color])).box? = some r.box := by
  have hplain : ∀ pixel, Call.outermost? (pixelText pixel) = some pixel.toInt := fun pixel => by
    have hnothing : "" ∈ ["", " + i", " - 2 * i"] := by decide
    simpa using outermost?_pixelText pixel hnothing
  simp [Call.box?, boxArguments, hplain, Rect.box]

theorem box?_nestedArguments (name : String) (r : Rect) (color : String) :
    (Call.mk name (nestedArguments r ++ [color])).box? = some r.box := by
  have hstart : ∀ pixel, Call.outermost? (pixelText pixel ++ " + i") = some pixel.toInt := fun pixel =>
    outermost?_pixelText pixel (by decide)
  have hextent : ∀ pixel, Call.outermost? (pixelText pixel ++ " - 2 * i") = some pixel.toInt := fun pixel =>
    outermost?_pixelText pixel (by decide)
  simp [Call.box?, nestedArguments, hstart, hextent, Rect.box]

theorem showBox_drawn {colors : Table Rgb} {fill : Option String} {outline : String} {inside around : Option Rgb}
    (hfill : Colors.Binds colors fill inside) (houtline : Colors.Binds colors (some outline) around) (r : Rect) :
    Call.ShowBox colors (drawn p r fill outline) ⟨r.box, inside, if p.borderWidth = 0 then none else around⟩ := by
  have hinside : Call.ShowBox colors
      (fill.map fun color => Call.mk "filled_rectangle" (boxArguments r ++ [color])).toList
      ⟨r.box, inside, none⟩ := by
    cases hfill with
    | nothing => exact Call.showBox_nil colors r.box
    | color _ hcolor => exact Call.showBox_interior (box?_boxArguments _ r _) hcolor
  refine hinside.append ?_
  cases houtline with
  | color _ hcolor =>
    split_ifs
    · exact Call.showBox_nil colors r.box
    · exact Call.showBox_outline (box?_boxArguments _ r outline) hcolor
    · exact Call.showBox_outline (box?_nestedArguments _ r outline) hcolor

theorem callsShowBox (hp : schema.read w = .ok p) (hfill : Color.IsUsual p.paint.fillColor)
    (houtline : Color.IsUsual p.paint.outlineColor) (dark : Bool) :
    kind.CallsShowBox w dark (pictureIn p dark w.rect) := by
  rintro s r rfl hr
  obtain ⟨fill, outline, after, hregister, hinside, haround⟩ := Shape.Paint.register_binds hfill houtline s hr
  refine ⟨block p w fill outline, after, ?_, ?_⟩
  · change runWith (procedural s w) r = _
    rw [procedural, runWith_bind, runWith_ofExcept, Schema.readForExport_eq hp]
    change runWith (p.paint.register s >>= _) r = _
    rw [runWith_bind, hregister]
    rfl
  · rw [ofLines_block p w hinside.isName (haround.isName outline rfl)]
    exact showBox_drawn hinside haround w.rect

/-! ## Instructions -/

theorem toInt_add {a b : Pixel} (h : Pixel.InRange (a.toInt + b.toInt)) :
    (Pixel.add a b).toInt = a.toInt + b.toInt :=
  Int32.toInt_ofIntClamp h.1 h.2

theorem instructionsShowBox (hp : schema.read w = .ok p) (hfill : Color.IsUsual p.paint.fillColor)
    (houtline : Color.IsUsual p.paint.outlineColor) (hright : Pixel.InRange (w.rect.x.toInt + w.rect.width.toInt))
    (hbottom : Pixel.InRange (w.rect.y.toInt + w.rect.height.toInt)) (dark : Bool) :
    kind.InstructionsShowBox w dark (pictureIn p dark w.rect) := by
  rintro s r f rfl
  refine ⟨_, by simp only [kind, declarative, Schema.readForExport_eq hp]; rfl, ?_⟩
  obtain ⟨rgb, hpainted, hliteral, -⟩ := Setting.exists_drawn houtline s
  have hwidth : (Pixel.add w.rect.x w.rect.width).toInt - w.rect.x.toInt = w.rect.width.toInt := by
    rw [toInt_add hright]
    omega
  have hheight : (Pixel.add w.rect.y w.rect.height).toInt - w.rect.y.toInt = w.rect.height.toInt := by
    rw [toInt_add hbottom]
    omega
  simp only [Instruction.boxPicture?, Shape.Paint.mapM_literalFill hfill, Rect.right, Rect.bottom, hwidth, hheight,
    pictureIn, hpainted]
  split_ifs with hnone
  · rfl
  · simp [hliteral, Rect.box]

/-! ## Nodes -/

/-- The node of a rectangle, with a background and the color of its outline. -/
def node (p : Props) (w : Widget) (background : Option String × String) (outline : String) : RetainedNode :=
  (RetainedNode.ofWidget "obj" w).putTextIf "bg_color" background.1
    |>.putText "bg_opa" background.2
    |>.putCount "border_width" p.borderWidth
    |>.putText "border_color" outline
    |>.putCount "radius" p.radius

theorem retained_of_read (hp : schema.read w = .ok p) (s : Setting) (r : Resources) :
    retained s r w = .ok [node p w (p.paint.background s) (s.drawnGuiColor p.paint.outlineColor)] := by
  simp only [retained, Schema.readForExport_eq hp]
  rfl

theorem boxPicture?_node (p : Props) (w : Widget) (background : Option String × String) (outline : String) :
    (node p w background outline).boxPicture? = do
      let fill ← background.1.mapM Rgb.ofNumber?
      let around ← (if p.borderWidth = 0 then none else some outline).mapM Rgb.ofNumber?
      return ⟨w.rect.box, fill, around⟩ := by
  have hborder : p.borderWidth.toNat = 0 ↔ p.borderWidth = 0 := UInt32.toNat_inj (b := 0)
  obtain ⟨color, opacity⟩ := background
  cases color <;>
    simp [node, RetainedNode.boxPicture?, RetainedNode.whole?, RetainedNode.text?, RetainedNode.putTextIf,
      RetainedNode.putText, RetainedNode.putPixel, RetainedNode.putCount, RetainedNode.find?_put_of_ne,
      RetainedNode.ofWidget, Json.ofInt, Json.ofNat, hborder, Rect.box]

theorem nodesShowBox (hp : schema.read w = .ok p) (hfill : Color.IsUsual p.paint.fillColor)
    (houtline : Color.IsUsual p.paint.outlineColor) (dark : Bool) :
    kind.NodesShowBox w dark (pictureIn p dark w.rect) := by
  rintro s r rfl
  refine ⟨_, retained_of_read hp s r, ?_⟩
  obtain ⟨rgb, hpainted, -, hnumber⟩ := Setting.exists_drawn houtline s
  rw [boxPicture?_node, Shape.Paint.mapM_background hfill, pictureIn, hpainted]
  split_ifs
  · rfl
  · simp [hnumber]

/-! ## One picture -/

/-- The targets show one picture under a theme, whatever was registered before. -/
def IsShownAlike (w : Widget) (dark : Bool) : Prop :=
  ∃ picture, kind.CallsShowBox w dark picture ∧ kind.InstructionsShowBox w dark picture ∧
    kind.NodesShowBox w dark picture

/-- A rectangle with usual colors and a box within the range of pixels is the same in all targets under each theme. -/
theorem isShownAlike_of_usual (hp : schema.read w = .ok p)
    (hright : Pixel.InRange (w.rect.x.toInt + w.rect.width.toInt))
    (hbottom : Pixel.InRange (w.rect.y.toInt + w.rect.height.toInt)) (hcolor : Color.IsUsual p.color)
    (hbackground : Color.IsUsual p.bgColor) (hborder : Color.IsUsual p.borderColor) (dark : Bool) :
    IsShownAlike w dark := by
  have hfill : Color.IsUsual p.paint.fillColor := hbackground.effective hcolor
  have houtline : Color.IsUsual p.paint.outlineColor := hborder.effective hcolor
  exact ⟨pictureIn p dark w.rect, callsShowBox hp hfill houtline dark,
    instructionsShowBox hp hfill houtline hright hbottom dark, nodesShowBox hp hfill houtline dark⟩

/-- A filled rectangle with a thick outline, whose colors are a triple and a name. -/
def framed : Widget :=
  { (Widget.make "frame" "shape_rect").withGeometry (.ofNat 10) (.ofNat 20) (.ofNat 50) (.ofNat 30) with
    props := [("bg_color", .string "#1A2b3C"), ("border_color", .string " Orange "), ("border_width", count 3),
      ("fill", .bool true)] }

theorem read_framed :
    schema.read framed = .ok { fill := true, borderWidth := 3, bgColor := "#1A2b3C", borderColor := " Orange " } := by
  refine isRestorable.read_of_overlay ?_
  rfl

theorem isShownAlike_framed :
    Pixel.InRange (framed.rect.x.toInt + framed.rect.width.toInt) ∧
      Pixel.InRange (framed.rect.y.toInt + framed.rect.height.toInt) ∧ IsShownAlike framed true := by
  have hright : Pixel.InRange (framed.rect.x.toInt + framed.rect.width.toInt) := by decide +kernel
  have hbottom : Pixel.InRange (framed.rect.y.toInt + framed.rect.height.toInt) := by decide +kernel
  refine ⟨hright, hbottom, isShownAlike_of_usual read_framed hright hbottom ?_ ?_ ?_ true⟩
  · exact .themeAuto (by decide)
  · have hall : "1A2b3C".toList.all (fun c => (Json.hexValue? c).isSome) = true := by decide
    have hdigits : Color.IsHex "1A2b3C".toList := List.all_eq_true.mp hall
    exact .hex (by decide +kernel) (by decide) hdigits
  · exact .name (by decide +kernel)

end Kind.Rectangle

end Dashboard
