import Dashboard.Proofs.Compile.Provided
import Dashboard.Proofs.Document.Calls
import Dashboard.Proofs.Kind.Declared
/-!
# Calls of texts, clocks and circles

What the drawing code of a widget draws, call by call. A widget whose properties can be read always has drawing
code; fonts and colors stand in it by names, whichever resources were registered before.
-/

namespace Dashboard

open Text Number Emission Statement

namespace Resources

variable (s : Setting) (value : String) (role : ColorRole) (r : Resources)

theorem isName_colorConstant : IsName (colorConstant s value role r).1 := by
  rw [colorConstant_fst s value role r {}]
  exact ((provides_empty ∅).colorConstant s value role).1.isName

theorem isName_colorConstant? : ∀ name ∈ (colorConstant? s value role r).1, IsName name := by
  rw [colorConstant?_fst s value role r {}]
  exact fun name hname => (((provides_empty ∅).colorConstant? s value role).1 name hname).isName

theorem isSome_colorConstant? : (colorConstant? s value role r).1.isSome = (s.color? value role).isSome := by
  unfold colorConstant?
  cases s.color? value role <;> rfl

end Resources

namespace Block

theorem calls_foldl_line (b : Block) (statements : List String) :
    (statements.foldl Block.line b).calls = b.calls ++ Call.ofLines statements := by
  induction statements generalizing b with
  | nil => simp [Call.ofLines]
  | cons l statements ih =>
    rw [List.foldl_cons, ih, calls_line, ← Call.ofLines_singleton, List.append_assoc, ← Call.ofLines_append,
      List.singleton_append]

end Block

namespace Kind

variable {w : Widget}

/-! ## Texts -/

namespace TextBlock

/-- The call that draws a text in a font and a color. -/
def drawn (p : Props) (w : Widget) (font color : String) : Call :=
  let point := p.alignment.anchorPoint w.rect
  let place := [pixelText point.1, pixelText point.2, componentRef font, color, p.alignment.textAlign]
  match entityRead? w with
  | some read => ⟨"printf", place ++ [literal (printFormat p.text read p.precision), stateArgument read]⟩
  | none => ⟨"print", place ++ [literal p.text]⟩

theorem ofLine?_statement (p : Props) (w : Widget) {font color : String} (hfont : IsName font)
    (hcolor : IsName color) : Call.ofLine? (statement p w font color) = some (drawn p w font color) := by
  have hplace : ∀ a ∈ [pixelText (p.alignment.anchorPoint w.rect).1, pixelText (p.alignment.anchorPoint w.rect).2,
      componentRef font, color, p.alignment.textAlign], Call.IsWhole a.toList := by
    simp only [List.forall_mem_cons, List.not_mem_nil, false_implies, implies_true, and_true]
    exact ⟨Call.isWhole_pixelText _, Call.isWhole_pixelText _, Call.isWhole_componentRef hfont,
      Call.isWhole_of_isName hcolor, Call.isWhole_textAlign _⟩
  unfold statement drawn
  cases hread : entityRead? w with
  | some read =>
    obtain ⟨entity, rfl⟩ := entityRead?_eq hread
    refine Call.ofLine?_call (by decide) (by simp) (List.forall_mem_append.mpr ⟨hplace, ?_⟩)
    simp only [List.forall_mem_cons, List.not_mem_nil, false_implies, implies_true, and_true]
    exact ⟨Call.isWhole_literal _, Call.isWhole_stateArgument (isName_entityRead? hread)⟩
  | none =>
    refine Call.ofLine?_call (by decide) (by simp) (List.forall_mem_append.mpr ⟨hplace, ?_⟩)
    exact List.forall_mem_singleton.mpr (Call.isWhole_literal _)

theorem gives_procedural {p : Props} (hp : schema.read w = .ok p) (s : Setting) :
    Gives (fun lines => ∃ font color, Call.ofLines lines = [drawn p w font color]) (procedural s w) := by
  refine Gives.ofExcept_bind (Schema.readForExport_eq hp) ?_
  refine Gives.bind (.register fun _ => FontRequest.isName_id _) fun font hfont => ?_
  refine Gives.bind (.register (Resources.isName_colorConstant s _ _)) fun color hcolor => .pure ⟨font, color, ?_⟩
  simp [ofLine?_statement _ w hfont hcolor]

end TextBlock

/-! ## Clocks -/

namespace Clock

/-- The call that draws one line of a clock. -/
def drawnLine (x y : Pixel) (align : Alignment) (font color pattern : String) : Call :=
  ⟨"strftime", [pixelText x, pixelText y, componentRef font, color, align.textAlign, literal pattern, "now"]⟩

/-- The calls that draw a clock in its two fonts. -/
def drawn (p : Props) (r : Rect) (timeFont dateFont color : String) : List Call :=
  let point := p.alignment.anchorPoint r
  match p.format.secondaryPattern? with
  | some second =>
    let stack := stackIn r p p.timeFontSize p.dateFontSize
    let top := p.alignment.withVertical .top
    [drawnLine point.1 stack.firstY top timeFont color p.format.primaryPattern,
      drawnLine point.1 stack.secondY top dateFont color second]
  | none =>
    [drawnLine point.1 point.2 p.alignment (if p.format.isDate then dateFont else timeFont) color
      p.format.primaryPattern]

theorem ofLine?_timeCall (x y : Pixel) (align : Alignment) {font color : String} (hfont : IsName font)
    (hcolor : IsName color) (pattern : String) :
    Call.ofLine? (timeCall x y font color align.textAlign pattern) =
      some (drawnLine x y align font color pattern) := by
  refine Call.ofLine?_call (by decide) (by simp) ?_
  simp only [List.forall_mem_cons, List.not_mem_nil, false_implies, implies_true, and_true]
  exact ⟨Call.isWhole_pixelText x, Call.isWhole_pixelText y, Call.isWhole_componentRef hfont,
    Call.isWhole_of_isName hcolor, Call.isWhole_textAlign align, Call.isWhole_literal pattern,
    Call.isWhole_all (by decide)⟩

theorem ofLines_block (s : Setting) (w : Widget) (p : Props) (statements : List String) :
    Call.ofLines (block s w p statements) = Call.ofLines statements := by
  have hnow : Call.ofLine? ("auto now = " ++ componentRef s.options.timeId ++ ".now();") = none := by
    rw [String.append_assoc]
    exact Call.ofLine?_eq_none rfl (by decide) (fun _ => rfl) _
  simp [block, Block.calls_foldl_line, hnow]

theorem gives_procedural {p : Props} (hp : schema.read w = .ok p) (s : Setting) :
    Gives (fun lines => ∃ timeFont dateFont color, Call.ofLines lines = drawn p w.rect timeFont dateFont color)
      (procedural s w) := by
  refine Gives.ofExcept_bind (Schema.readForExport_eq hp) ?_
  refine Gives.bind (.register (Resources.isName_colorConstant s _ _)) fun color hcolor => ?_
  cases hsecond : p.format.secondaryPattern? with
  | some second =>
    refine Gives.bind (.register fun _ => FontRequest.isName_id _) fun timeFont htime => ?_
    refine Gives.bind (.register fun _ => FontRequest.isName_id _) fun dateFont hdate => .pure ?_
    refine ⟨timeFont, dateFont, color, ?_⟩
    rw [ofLines_block]
    simp [stackedCalls, Call.ofLines, ofLine?_timeCall _ _ _ _ hcolor, htime, hdate, drawn, hsecond]
  | none =>
    refine Gives.bind (.register fun _ => FontRequest.isName_id _) fun font hfont => .pure ?_
    refine ⟨font, font, color, ?_⟩
    rw [ofLines_block]
    simp [singleCall, Call.ofLines, ofLine?_timeCall _ _ _ hfont hcolor, drawn, hsecond]

end Clock

/-! ## Circles -/

namespace Shape.Paint

/-- Whether the interior has a color: it is filled, and not with the transparent color. -/
def isFilled (p : Paint) : Bool := p.fill && !sameLetters (trim p.fillColor) Color.transparent

theorem isSome_color?_fill (s : Setting) (value : String) :
    (s.color? value .fill).isSome = !sameLetters (trim value) Color.transparent := by
  unfold Setting.color? Color.resolve?
  by_cases h : sameLetters (trim value) Color.transparent = true
  · simp [h]
  · simp [h, apply_ite Option.isSome]

theorem gives_register (p : Paint) (s : Setting) :
    Gives (fun c => (∀ color ∈ c.1, IsName color) ∧ IsName c.2 ∧ c.1.isSome = p.isFilled) (p.register s) := by
  have hrest : ∀ fill : Option String, (∀ color ∈ fill, IsName color) ∧ fill.isSome = p.isFilled →
      Gives (fun c : Option String × String => (∀ color ∈ c.1, IsName color) ∧ IsName c.2 ∧
        c.1.isSome = p.isFilled) (do
        let outline ← Emission.register (Resources.colorConstant s p.outlineColor .outline)
        return (fill, outline)) := fun fill hfill =>
    Gives.bind (.register (Resources.isName_colorConstant s _ _)) fun outline houtline =>
      .pure ⟨hfill.1, houtline, hfill.2⟩
  unfold register
  cases hfill : p.fill with
  | true =>
    have hcolor : Gives (fun fill : Option String => (∀ color ∈ fill, IsName color) ∧ fill.isSome = p.isFilled)
        (Emission.register (Resources.colorConstant? s p.fillColor .fill)) := by
      refine .register fun r => ⟨Resources.isName_colorConstant? s _ _ r, ?_⟩
      rw [Resources.isSome_colorConstant?, isSome_color?_fill, isFilled, hfill, Bool.true_and]
    exact hcolor.bind hrest
  | false =>
    have hnone : Gives (fun fill : Option String => (∀ color ∈ fill, IsName color) ∧ fill.isSome = p.isFilled)
        (Pure.pure none) := by
      refine .pure ⟨fun _ h => (nomatch h), ?_⟩
      rw [isFilled, hfill, Bool.false_and, Option.isSome_none]
    exact hnone.bind hrest

end Shape.Paint

namespace Shape

/-- A block with the interior of a shape, if it has a color. -/
def filled (b : Block) (paint : String → String) : Option String → Block
  | some color => b.line (paint color)
  | none => b

/-- The calls of a shape: its interior, if it has a color, and its outline, if it has a width. -/
def drawn (fill : Option String) (width : UInt32) (interior : String → Call) (single nested : Call) : List Call :=
  (fill.map interior).toList ++ if width = 0 then [] else [if width = 1 then single else nested]

theorem ofLines_block {b : Block} (hb : b.calls = []) {fill : Option String} {paint : String → String}
    {interior : String → Call} (hinterior : ∀ color ∈ fill, Call.ofLine? (paint color) = some (interior color))
    {line loop : String} {single nested : Call} (hsingle : Call.ofLine? line = some single)
    (hnested : Call.ofLine? loop = some nested) (width : UInt32) :
    Call.ofLines (outline (filled b paint fill) width line loop).finish =
      drawn fill width interior single nested := by
  have hstart : (filled b paint fill).calls = (fill.map interior).toList := by
    cases fill with
    | none => exact hb
    | some color =>
      rw [filled, Block.calls_line, hb, hinterior color rfl]
      rfl
  rw [Block.ofLines_finish, outline, drawn]
  by_cases hnone : width = 0
  · rw [if_pos hnone, if_pos hnone, hstart, List.append_nil]
  · rw [if_neg hnone, if_neg hnone]
    by_cases hone : width = 1
    · rw [if_pos hone, if_pos hone, Block.calls_line, hstart, hsingle]
      rfl
    · rw [if_neg hone, if_neg hone, Block.calls_loop, hstart, hnested]
      rfl

end Shape

namespace Circle

/-- The calls that draw a circle: its interior, if it has a color, and its outline, if it has a width. -/
def drawn (p : Props) (r : Rect) (fill : Option String) (outline : String) : List Call :=
  let radius := pixelText r.innerRadius
  (fill.map fun color => ⟨"filled_circle", centerArguments r ++ [radius, color]⟩).toList ++
    if p.borderWidth = 0 then []
    else
      let nested := if p.borderWidth = 1 then radius else radius ++ " - i"
      [⟨"circle", centerArguments r ++ [nested, outline]⟩]

theorem ofLine?_circle (name : String) (hname : IsWord name.toList) (r : Rect) {radius color : String}
    (hradius : Call.IsWhole radius.toList) (hcolor : IsName color) :
    Call.ofLine? (call name (centerArguments r ++ [radius, color])) =
      some ⟨name, centerArguments r ++ [radius, color]⟩ := by
  refine Call.ofLine?_call hname (by simp) ?_
  simp only [centerArguments, List.cons_append, List.nil_append, List.forall_mem_cons, List.not_mem_nil,
    false_implies, implies_true, and_true]
  exact ⟨Call.isWhole_pixelText _, Call.isWhole_pixelText _, hradius, Call.isWhole_of_isName hcolor⟩

theorem ofLines_block (p : Props) (w : Widget) {fill : Option String} {outline : String}
    (hfill : ∀ color ∈ fill, IsName color) (houtline : IsName outline) :
    Call.ofLines (block p w fill outline) = drawn p w.rect fill outline := by
  have hradius := Call.isWhole_pixelText w.rect.innerRadius
  have hnested : Call.IsWhole (pixelText w.rect.innerRadius ++ " - i").toList := by
    rw [String.toList_append]
    exact hradius.append (Call.isWhole_all (by decide))
  have hsingle := ofLine?_circle "circle" (by decide) w.rect hradius houtline
  have hloop := ofLine?_circle "circle" (by decide) w.rect hnested houtline
  have hinterior : ∀ color ∈ fill, Call.ofLine? (call "filled_circle"
      (centerArguments w.rect ++ [pixelText w.rect.innerRadius, color])) = some _ :=
    fun color hcolor => ofLine?_circle "filled_circle" (by decide) w.rect hradius (hfill color hcolor)
  refine (Shape.ofLines_block (Block.calls_start w (schema.bag p) aliases) hinterior hsingle hloop
    p.borderWidth).trans ?_
  unfold Shape.drawn drawn
  split_ifs <;> rfl

theorem gives_procedural {p : Props} (hp : schema.read w = .ok p) (s : Setting) :
    Gives (fun lines => ∃ fill outline, fill.isSome = p.paint.isFilled ∧
      Call.ofLines lines = drawn p w.rect fill outline) (procedural s w) := by
  refine Gives.ofExcept_bind (Schema.readForExport_eq hp) ?_
  refine Gives.bind (p.paint.gives_register s) fun c hc => .pure ⟨c.1, c.2, hc.2.2, ?_⟩
  exact ofLines_block p w hc.1 hc.2.1

/-- The node of a circle of a diameter, with a background and an outline. -/
def node (p : Props) (w : Widget) (diameter : Pixel) (background : Option String × String) (outline : String) :
    RetainedNode :=
  (RetainedNode.ofWidget "obj" w).putPixel "width" diameter
    |>.putPixel "height" diameter
    |>.putText "radius" "LV_RADIUS_CIRCLE"
    |>.putTextIf "bg_color" background.1
    |>.putText "bg_opa" background.2
    |>.putCount "border_width" p.borderWidth
    |>.putText "border_color" outline

theorem retained_of_read {p : Props} (hp : schema.read w = .ok p) (s : Setting) (r : Resources) :
    retained s r w =
      .ok [node p w (diameter w) (p.paint.background s) (s.drawnGuiColor p.paint.outlineColor)] := by
  simp only [retained, Schema.readForExport_eq hp]
  rfl

end Circle

end Kind

end Dashboard
