import Dashboard.Proofs.Kind.Blocks
import Dashboard.Kind.Registry
/-!
# The drawing code of the built-in kinds

Kind by kind, what a widget draws is a block of its own.
-/

namespace Dashboard.Kind

open Dashboard.Text Emission Statement Resources

variable {T : String → Prop} {s : Setting} {w : Widget}

/-! ## Clocks -/

namespace Clock

theorem hasKeys : schema.HasKeys aliases := by
  intro p
  simp only [schema, List.forall_mem_cons, List.not_mem_nil, false_implies, implies_true, and_true]
  decide

theorem raw_fontFamily {p : Props} (h : HasRaw T (schema.bag p)) : T p.fontFamily :=
  h "font_family" (by decide) p.fontFamily (by
    rw [Schema.bag, Table.find?_ofList]
    simp [schema, List.lookup_cons])

theorem isFamily_timeFont {p : Props} (h : T p.fontFamily) : IsFamily T p.timeFont.family :=
  .inr ⟨p.fontFamily, h, by simp only [Props.timeFont, FontRequest.make]⟩

theorem isFamily_dateFont {p : Props} (h : T p.fontFamily) : IsFamily T p.dateFont.family :=
  .inr ⟨p.fontFamily, h, by simp only [Props.dateFont, FontRequest.make]⟩

theorem isFamily_singleFont {p : Props} (h : T p.fontFamily) : IsFamily T p.singleFont.family := by
  unfold Props.singleFont
  split
  · exact isFamily_dateFont h
  · exact isFamily_timeFont h

theorem isOf_addFonts {p : Props} (h : T p.fontFamily) {r : Resources} (hr : r.IsOf T) :
    (addFonts p.fonts r).IsOf T := by
  unfold Props.fonts addFonts
  split
  · exact (hr.addFont (isFamily_timeFont h)).addFont (isFamily_dateFont h)
  · exact hr.addFont (isFamily_singleFont h)

theorem isDrawing_timeCall (x y : Pixel) {font color align : String} (hfont : OneLine font)
    (hcolor : OneLine color) (halign : OneLine align) (pattern : String) :
    IsDrawing (timeCall x y font color align pattern) := by
  refine .call (by decide) (by decide) (by decide) ?_
  simp only [List.forall_mem_cons, List.not_mem_nil, false_implies, implies_true, and_true]
  exact ⟨oneLine_pixelText x, oneLine_pixelText y, oneLine_componentRef hfont, hcolor, halign,
    .literal pattern, by decide⟩

theorem writes_block {p : Props} (hp : schema.read w = .ok p) (ht : OneLine s.options.timeId)
    {calls : List String} (hcalls : ∀ c ∈ calls, IsDrawing c) :
    kind.Writes w (block s w p calls) := by
  refine ⟨schema.bag p, congrArg (Except.map schema.bag) hp, ?_, hasKeys.propEntries p⟩
  have hstart := (Block.builds_start w (schema.bag p) aliases).openScope
  exact (((hstart.line (.now ht)).foldl_line hcalls).closeScope (by decide)).finish

theorem writesBlocks : kind.WritesBlocks := by
  intro T s w ht hraw
  have hfamily : ∀ p, schema.read w = .ok p → T p.fontFamily := fun p hp =>
    raw_fontFamily (hraw (schema.bag p) (congrArg (Except.map schema.bag) hp))
  constructor
  · exact (yields_schema schema w).bind fun p hp => .modify fun r hr =>
      isOf_addFonts (hfamily p hp) hr
  · refine (yields_schema schema w).bind fun p hp => (yields_color s _ _).bind fun color hcolor => ?_
    cases hsecond : p.format.secondaryPattern? with
    | some second =>
      refine (yields_font (isFamily_timeFont (hfamily p hp))).bind fun timeFont htime => ?_
      refine (yields_font (isFamily_dateFont (hfamily p hp))).bind fun dateFont hdate => .pure ?_
      refine writes_block hp ht ?_
      simp only [stackedCalls, List.forall_mem_cons, List.not_mem_nil, false_implies, implies_true,
        and_true]
      exact ⟨isDrawing_timeCall _ _ htime hcolor (oneLine_textAlign _) _,
        isDrawing_timeCall _ _ hdate hcolor (oneLine_textAlign _) _⟩
    | none =>
      refine (yields_font (isFamily_singleFont (hfamily p hp))).bind fun font hfont => .pure ?_
      refine writes_block hp ht ?_
      simp only [List.forall_mem_cons, List.not_mem_nil, false_implies, implies_true, and_true]
      exact isDrawing_timeCall _ _ hfont hcolor (oneLine_textAlign _) _

end Clock

/-! ## Texts -/

namespace TextBlock

theorem hasKeys : schema.HasKeys aliases := by
  intro p
  simp only [schema, List.forall_mem_cons, List.not_mem_nil, false_implies, implies_true, and_true]
  decide

theorem raw_fontFamily {p : Props} (h : HasRaw T (schema.bag p)) : T p.fontFamily :=
  h "font_family" (by decide) p.fontFamily (by
    rw [Schema.bag, Table.find?_ofList]
    simp [schema, List.lookup_cons])

theorem isFamily_font {p : Props} (h : T p.fontFamily) : IsFamily T p.font.family :=
  .inr ⟨p.fontFamily, h, by simp only [Props.font, FontRequest.make]⟩

theorem isDrawing_statement (p : Props) (w : Widget) {font color : String} (hfont : OneLine font)
    (hcolor : OneLine color) : IsDrawing (statement p w font color) := by
  unfold statement
  cases hread : entityRead? w with
  | some read =>
    obtain ⟨entity, rfl⟩ := entityRead?_eq hread
    refine .call (by decide) (by decide) (by decide) ?_
    simp only [List.cons_append, List.nil_append, List.forall_mem_cons, List.not_mem_nil,
      false_implies, implies_true, and_true]
    exact ⟨oneLine_pixelText _, oneLine_pixelText _, oneLine_componentRef hfont, hcolor,
      oneLine_textAlign _, .literal _, oneLine_stateArgument entity _⟩
  | none =>
    refine .call (by decide) (by decide) (by decide) ?_
    simp only [List.cons_append, List.nil_append, List.forall_mem_cons, List.not_mem_nil,
      false_implies, implies_true, and_true]
    exact ⟨oneLine_pixelText _, oneLine_pixelText _, oneLine_componentRef hfont, hcolor,
      oneLine_textAlign _, .literal _⟩

theorem writesBlocks : kind.WritesBlocks := by
  intro T s w ht hraw
  have hfamily : ∀ p, schema.read w = .ok p → T p.fontFamily := fun p hp =>
    raw_fontFamily (hraw (schema.bag p) (congrArg (Except.map schema.bag) hp))
  constructor
  · refine (yields_schema schema w).bind fun p hp => ?_
    exact (yields_font (isFamily_font (hfamily p hp))).bind fun _ _ => .pure trivial
  · refine (yields_schema schema w).bind fun p hp => ?_
    refine (yields_font (isFamily_font (hfamily p hp))).bind fun font hfont => ?_
    refine (yields_color s _ _).bind fun color hcolor => .pure ?_
    refine ⟨schema.bag p, congrArg (Except.map schema.bag) hp, ?_, hasKeys.propEntries p⟩
    exact ((Block.builds_start w (schema.bag p) aliases).line
      (isDrawing_statement p w hfont hcolor)).finish

end TextBlock

/-! ## Shapes -/

namespace Shape

variable {marker : String} {column : Nat} {b : Block}

theorem yields_register (p : Paint) (s : Setting) :
    Yields (IsOf T) (fun c => (∀ fill ∈ c.1, OneLine fill) ∧ OneLine c.2)
      (p.register s) := by
  have hrest : ∀ fill : Option String, (∀ f ∈ fill, OneLine f) → Yields (IsOf T)
      (fun c : Option String × String => (∀ fill ∈ c.1, OneLine fill) ∧ OneLine c.2) (do
        let outline ← Emission.register (Resources.colorConstant s p.outlineColor .outline)
        return (fill, outline)) := fun fill hfill =>
    (yields_color s _ _).bind fun outline houtline => .pure ⟨hfill, houtline⟩
  unfold Paint.register
  cases p.fill with
  | true =>
    have hfill : Yields (IsOf T) (fun fill => ∀ f ∈ fill, OneLine f)
        (Emission.register (Resources.colorConstant? s p.fillColor .fill)) :=
      .register fun _ hr => hr.colorConstant? s _ _
    exact hfill.bind hrest
  | false =>
    have hnone : Yields (IsOf T) (fun fill : Option String => ∀ f ∈ fill, OneLine f)
        (Pure.pure none) := .pure fun _ hf => nomatch hf
    exact hnone.bind hrest

theorem builds_outline (h : b.Builds marker column) (width : UInt32) {single nested : String}
    (hsingle : IsDrawing single) (hnested : IsDrawing nested) :
    (outline b width single nested).Builds marker column := by
  unfold outline
  split
  · exact h
  · split
    · exact h.line hsingle
    · exact h.loop _ hnested

theorem builds_fill (h : b.Builds marker column) {fill : Option String} {statement : String → String}
    (hfill : ∀ color ∈ fill, IsDrawing (statement color)) :
    (match fill with
      | some color => b.line (statement color)
      | none => b).Builds marker column := by
  cases fill with
  | none => exact h
  | some color => exact h.line (hfill color rfl)

end Shape

namespace Rectangle

theorem hasKeys : schema.HasKeys aliases := by
  intro p
  simp only [schema, List.forall_mem_cons, List.not_mem_nil, false_implies, implies_true, and_true]
  decide

theorem oneLine_boxArguments (r : Rect) : ∀ a ∈ boxArguments r, OneLine a := by
  simp only [boxArguments, List.forall_mem_cons, List.not_mem_nil, false_implies, implies_true,
    and_true]
  exact ⟨oneLine_pixelText _, oneLine_pixelText _, oneLine_pixelText _, oneLine_pixelText _⟩

theorem oneLine_nestedArguments (r : Rect) : ∀ a ∈ nestedArguments r, OneLine a := by
  simp only [nestedArguments, List.forall_mem_cons, List.not_mem_nil, false_implies, implies_true,
    and_true]
  exact ⟨(oneLine_pixelText _).append (by decide), (oneLine_pixelText _).append (by decide),
    (oneLine_pixelText _).append (by decide), (oneLine_pixelText _).append (by decide)⟩

theorem follows_block (p : Props) (w : Widget) {fill : Option String} {outline : String}
    (hfill : ∀ f ∈ fill, OneLine f) (houtline : OneLine outline) :
    Block.Follows (Marker.encode w (schema.bag p) aliases) (block p w fill outline) := by
  have hcolored : ∀ {arguments : List String} {color : String}, (∀ a ∈ arguments, OneLine a) →
      OneLine color → ∀ a ∈ arguments ++ [color], OneLine a := by
    intro arguments color harguments hcolor
    exact List.forall_mem_append.mpr ⟨harguments, List.forall_mem_singleton.mpr hcolor⟩
  refine (Shape.builds_outline (Shape.builds_fill (Block.builds_start w _ _) fun f hf => ?_) _ ?_
    ?_).finish
  · exact .call (by decide) (by decide) (by decide) (hcolored (oneLine_boxArguments _) (hfill f hf))
  · exact .call (by decide) (by decide) (by decide) (hcolored (oneLine_boxArguments _) houtline)
  · exact .call (by decide) (by decide) (by decide) (hcolored (oneLine_nestedArguments _) houtline)

theorem writesBlocks : kind.WritesBlocks := by
  intro T s w _ _
  refine ⟨.pure trivial, (yields_schema schema w).bind fun p hp => ?_⟩
  refine (Shape.yields_register p.paint s).bind fun c hc => .pure ?_
  exact ⟨schema.bag p, congrArg (Except.map schema.bag) hp, follows_block p w hc.1 hc.2,
    hasKeys.propEntries p⟩

end Rectangle

namespace Circle

theorem hasKeys : schema.HasKeys aliases := by
  intro p
  simp only [schema, List.forall_mem_cons, List.not_mem_nil, false_implies, implies_true, and_true]
  decide

theorem oneLine_arguments (r : Rect) {radius color : String} (hradius : OneLine radius)
    (hcolor : OneLine color) : ∀ a ∈ centerArguments r ++ [radius, color], OneLine a := by
  simp only [centerArguments, List.cons_append, List.nil_append, List.forall_mem_cons,
    List.not_mem_nil, false_implies, implies_true, and_true]
  exact ⟨oneLine_pixelText _, oneLine_pixelText _, hradius, hcolor⟩

theorem follows_block (p : Props) (w : Widget) {fill : Option String} {outline : String}
    (hfill : ∀ f ∈ fill, OneLine f) (houtline : OneLine outline) :
    Block.Follows (Marker.encode w (schema.bag p) aliases) (block p w fill outline) := by
  have hradius := oneLine_pixelText w.rect.innerRadius
  refine (Shape.builds_outline (Shape.builds_fill (Block.builds_start w _ _) fun f hf => ?_) _ ?_
    ?_).finish
  · exact .call (by decide) (by decide) (by decide) (oneLine_arguments _ hradius (hfill f hf))
  · exact .call (by decide) (by decide) (by decide) (oneLine_arguments _ hradius houtline)
  · exact .call (by decide) (by decide) (by decide)
      (oneLine_arguments _ (hradius.append (by decide)) houtline)

theorem writesBlocks : kind.WritesBlocks := by
  intro T s w _ _
  refine ⟨.pure trivial, (yields_schema schema w).bind fun p hp => ?_⟩
  refine (Shape.yields_register p.paint s).bind fun c hc => .pure ?_
  exact ⟨schema.bag p, congrArg (Except.map schema.bag) hp, follows_block p w hc.1 hc.2,
    hasKeys.propEntries p⟩

end Circle

/-! ## Lines -/

namespace Line

theorem hasKeys : schema.HasKeys aliases := by
  intro p
  simp only [schema, List.forall_mem_cons, List.not_mem_nil, false_implies, implies_true, and_true]
  decide

theorem isDrawing_statement (p : Props) (r : Rect) {color : String} (hcolor : OneLine color) :
    IsDrawing (statement p r color) := by
  have hcall : ∀ {name a b c d : String}, name = "line" ∨ name = "filled_rectangle" → OneLine a →
      OneLine b → OneLine c → OneLine d → IsDrawing (call name [a, b, c, d, color]) := by
    intro name a b c d hname ha hb hc hd
    have hargs : ∀ x ∈ [a, b, c, d, color], OneLine x := by
      simp only [List.forall_mem_cons, List.not_mem_nil, false_implies, implies_true, and_true]
      exact ⟨ha, hb, hc, hd, hcolor⟩
    rcases hname with rfl | rfl
    · exact .call (by decide) (by decide) (by decide) hargs
    · exact .call (by decide) (by decide) (by decide) hargs
  have hpixel := oneLine_pixelText
  have hcount := oneLine_countText (stroke p)
  unfold statement
  split
  · exact hcall (.inl rfl) (hpixel _) (hpixel _) (hpixel _) (hpixel _)
  · exact hcall (.inl rfl) (hpixel _) (hpixel _) (hpixel _) (hpixel _)
  · exact hcall (.inr rfl) (hpixel _) (hpixel _) (hpixel _) hcount
  · exact hcall (.inr rfl) (hpixel _) (hpixel _) hcount (hpixel _)

theorem writesBlocks : kind.WritesBlocks := by
  intro T s w _ _
  refine ⟨.pure trivial, (yields_schema schema w).bind fun p hp => ?_⟩
  refine (yields_color s _ _).bind fun color hcolor => .pure ?_
  refine ⟨schema.bag p, congrArg (Except.map schema.bag) hp, ?_, hasKeys.propEntries p⟩
  exact ((Block.builds_start w (schema.bag p) aliases).line
    (isDrawing_statement p w.rect hcolor)).finish

end Line

/-! ## Charts -/

namespace Chart

theorem hasKeys : schema.HasKeys [] := by
  intro p
  simp only [schema, List.forall_mem_cons, List.not_mem_nil, false_implies, implies_true, and_true]
  decide

theorem raw_duration {p : Props} (h : HasRaw T (schema.bag p)) : T p.duration :=
  h "duration" (by decide) p.duration (by
    rw [Schema.bag, Table.find?_ofList]
    simp [schema, List.lookup_cons])

theorem oneLine_graphId (w : Widget) : OneLine (graphId w) :=
  (by decide : OneLine "graph_").append (oneLine_componentId w.id)

theorem isFamily_titleFont : IsFamily T titleFont.family := .inl (by decide)

theorem yields_addTitleFont (w : Widget) :
    Yields (IsOf T) (fun font => ∀ f ∈ font, OneLine f) (addTitleFont w) := by
  unfold addTitleFont
  split
  · exact (yields_font isFamily_titleFont).map fun font hfont f hf => Option.mem_some.mp hf ▸ hfont
  · exact .pure fun _ hf => nomatch hf

theorem isDrawing_titleCall (r : Rect) {font color : String} (title : String) (hfont : OneLine font)
    (hcolor : OneLine color) : IsDrawing (titleCall r font color title) := by
  refine .call (by decide) (by decide) (by decide) ?_
  simp only [List.forall_mem_cons, List.not_mem_nil, false_implies, implies_true, and_true]
  exact ⟨oneLine_pixelText _, oneLine_pixelText _, oneLine_componentRef hfont, hcolor, by decide,
    .literal title⟩

theorem isDrawing_frameCall (r : Rect) {color : String} (hcolor : OneLine color) :
    IsDrawing (frameCall r color) := by
  refine .call (by decide) (by decide) (by decide) ?_
  simp only [List.forall_mem_cons, List.not_mem_nil, false_implies, implies_true, and_true]
  exact ⟨oneLine_pixelText _, oneLine_pixelText _, oneLine_pixelText _, oneLine_pixelText _, hcolor⟩

theorem isDrawing_graphCall (w : Widget) {color : String} (hcolor : OneLine color) :
    IsDrawing (graphCall w color) := by
  refine .call (by decide) (by decide) (by decide) ?_
  simp only [List.forall_mem_cons, List.not_mem_nil, false_implies, implies_true, and_true]
  exact ⟨oneLine_pixelText _, oneLine_pixelText _, oneLine_componentRef (oneLine_graphId w), hcolor⟩

theorem builds_frame {marker : String} {column : Nat} {b : Block} (h : b.Builds marker column)
    (r : Rect) {color : String} (hcolor : OneLine color) (border : Bool) :
    (if border then b.line (frameCall r color) else b).Builds marker column := by
  split
  · exact h.line (isDrawing_frameCall r hcolor)
  · exact h

theorem builds_title {marker : String} {column : Nat} {b : Block} (h : b.Builds marker column)
    (r : Rect) {color : String} (hcolor : OneLine color) (title : Option String)
    {font : Option String} (hfont : ∀ f ∈ font, OneLine f) :
    (match title, font with
      | some title, some font => b.line (titleCall r font color title)
      | _, _ => b).Builds marker column := by
  cases title with
  | none => exact h
  | some title =>
    cases font with
    | none => exact h
    | some f => exact h.line (isDrawing_titleCall r title (hfont f rfl) hcolor)

theorem follows_block (p : Props) (w : Widget) {color : String} {font : Option String}
    (hcolor : OneLine color) (hfont : ∀ f ∈ font, OneLine f) :
    Block.Follows (Marker.encode w (schema.bag p) []) (block p w color font) := by
  have hframe := builds_frame (Block.builds_start w (schema.bag p) []) w.rect hcolor p.border
  have htitle := builds_title hframe w.rect hcolor (title? w) hfont
  exact (htitle.line (isDrawing_graphCall w hcolor)).finish

theorem writesBlocks : kind.WritesBlocks := by
  intro T s w _ hraw
  have hduration : ∀ p, schema.read w = .ok p → T p.duration := fun p hp =>
    raw_duration (hraw (schema.bag p) (congrArg (Except.map schema.bag) hp))
  constructor
  · refine (yields_schema schema w).bind fun p hp => ?_
    refine Yields.bind (Q := fun _ => True) (.ofExcept fun _ _ => trivial) fun _ _ => ?_
    refine Yields.bind (Q := fun read => entityRead? w = some read) (.ofExcept ?_) fun read hread => ?_
    · intro read hread
      unfold entityOf at hread
      split at hread
      · cases hread
        assumption
      · cases hread
    refine (yields_addTitleFont w).bind fun _ _ => ?_
    split
    · obtain ⟨entity, rfl⟩ := entityRead?_eq hread
      refine Yields.bind (Q := fun _ => True) (.register fun r hr => ⟨trivial, ?_⟩) fun _ _ =>
        .pure trivial
      exact hr.addGraph (oneLine_graphId w) (oneLine_componentId entity) (hduration p hp)
    · exact .pure trivial
  · refine (yields_schema schema w).bind fun p hp => ?_
    refine Yields.bind (Q := fun _ => True) (.ofExcept fun _ _ => trivial) fun _ _ => ?_
    refine (yields_color s _ _).bind fun color hcolor => ?_
    refine (yields_addTitleFont w).bind fun font hfont => .pure ?_
    exact ⟨schema.bag p, congrArg (Except.map schema.bag) hp, follows_block p w hcolor hfont,
      hasKeys.propEntries p⟩

end Chart

theorem writesBlocks_of_builtin {k : WidgetKind} (hk : k ∈ builtin)
    (hserves : k.serves .procedural = true) : k.WritesBlocks := by
  simp only [builtin, List.mem_cons, List.not_mem_nil, or_false] at hk
  rcases hk with rfl | rfl | rfl | rfl | rfl | rfl | rfl | rfl | rfl
  · exact Clock.writesBlocks
  · exact TextBlock.writesBlocks
  · exact Rectangle.writesBlocks
  · exact Circle.writesBlocks
  · exact Line.writesBlocks
  · exact Chart.writesBlocks
  all_goals exact absurd hserves Bool.false_ne_true

theorem isKey_of_builtin {k : WidgetKind} (hk : k ∈ builtin) : Marker.IsKey k.id.toList := by
  simp only [builtin, List.mem_cons, List.not_mem_nil, or_false] at hk
  rcases hk with rfl | rfl | rfl | rfl | rfl | rfl | rfl | rfl | rfl <;>
    decide

end Dashboard.Kind
