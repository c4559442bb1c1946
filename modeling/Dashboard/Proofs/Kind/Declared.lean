import Dashboard.Kind.Registry
import Dashboard.Proofs.Json.Contents
import Dashboard.Proofs.Compile.Provided
import Dashboard.Proofs.Kind.Blocks
/-!
# What the built-in kinds refer to

Kind by kind, the drawing code and the nodes of a widget refer to what the widget registers, and to the
entities that it reads.
-/

namespace Dashboard.Kind

open Dashboard.Text Emission Statement Resources

variable {s : Setting} {w : Widget} {S : Set String} {K : Set Reference} {r after : Resources}
  {P : Reference → Prop}

/-! ## Arguments -/

theorem isArgument_pixelText {refOf : String → Reference} (p : Pixel) : IsArgument refOf P (pixelText p) :=
  .mute (isMute_intText _)

theorem isMute_textAlign (a : Alignment) : IsMute a.textAlign.toList := by
  obtain ⟨h, v⟩ := a
  cases h <;> cases v <;> decide

/-- The node of an answer with one node. -/
theorem eq_of_mem_pure {ε α : Type} {a b : α} {as : List α} (h : (pure [b] : Except ε (List α)) = .ok as)
    (ha : a ∈ as) : a = b := by
  cases h
  exact List.mem_singleton.mp ha

theorem isName_entityRead? {read : EntityRead} (h : entityRead? w = some read) : IsName read.id := by
  obtain ⟨raw, -, hread⟩ := Option.bind_eq_some_iff.mp h
  obtain ⟨entity, hentity, rfl⟩ := Option.map_eq_some_iff.mp hread
  exact isName_componentId (Entity.ne_empty_of_normalize? hentity)

/-! ## Shapes -/

namespace Shape

theorem provides_outline {p : Paint} {fill : Option String} {names : Option String × String}
    (hr : r.Provides S K) (h : runWith (do
      let outline ← Emission.register (Resources.colorConstant s p.outlineColor .outline)
      return (fill, outline)) r = (.ok names, after)) :
    names.1 = fill ∧ IsColorName names.2 ∧ after.Provides S (insert (.color names.2) K) := by
  obtain ⟨outline, last, houtline, hpure⟩ := ok_of_bind h
  obtain ⟨rfl, rfl⟩ := ok_of_pure hpure
  exact ⟨rfl, hr.registerColor houtline⟩

theorem provides_register {p : Paint} {names : Option String × String} (hr : r.Provides S K)
    (h : runWith (p.register s) r = (.ok names, after)) :
    (∀ fill ∈ names.1, IsColorName fill) ∧ IsColorName names.2 ∧
      after.Provides S (insert (.color names.2) (Provides.colorOf names.1 ∪ K)) := by
  unfold Paint.register at h
  cases hp : p.fill with
  | true =>
    rw [hp, if_pos rfl] at h
    obtain ⟨fill, middle, hfill, hrest⟩ := ok_of_bind h
    obtain ⟨hnames, hprovides⟩ := hr.registerColor? hfill
    obtain ⟨rfl, houtline⟩ := provides_outline hprovides hrest
    exact ⟨hnames, houtline⟩
  | false =>
    rw [hp, if_neg Bool.false_ne_true] at h
    obtain ⟨fill, middle, hfill, hrest⟩ := ok_of_bind h
    obtain ⟨rfl, rfl⟩ := ok_of_pure hfill
    obtain ⟨hnone, houtline, hafter⟩ := provides_outline hr hrest
    rw [hnone]
    refine ⟨fun _ hn => (nomatch hn), houtline, hafter.refs fun ref href => hafter.holds ref ?_⟩
    exact href.imp_right fun hk => hk.resolve_left fun ⟨n, hn, _⟩ => nomatch hn

theorem refersTo_fill {b : Block} (h : b.RefersTo P) {fill : Option String} {statement : String → String}
    (hfill : ∀ color ∈ fill, ∀ ref ∈ references (statement color), P ref) :
    (match fill with
      | some color => b.line (statement color)
      | none => b).RefersTo P := by
  cases fill with
  | none => exact h
  | some color => exact h.line (hfill color rfl)

theorem refersTo_outline {b : Block} (h : b.RefersTo P) (width : UInt32) {single nested : String}
    (hsingle : ∀ ref ∈ references single, P ref) (hnested : ∀ ref ∈ references nested, P ref) :
    (outline b width single nested).RefersTo P := by
  unfold outline
  split
  · exact h
  · split
    · exact h.line hsingle
    · exact h.loop _ hnested

/-- The names of the colors of a shape, and what they refer to. -/
structure Colors (P : Reference → Prop) (fill : Option String) (outline : String) : Prop where
  fill : ∀ f ∈ fill, IsColorName f ∧ P (.color f)
  outline : IsColorName outline ∧ P (.color outline)

theorem provides_block {p : Paint} {block : Option String → String → List String}
    (hblock : ∀ {P : Reference → Prop} {fill outline}, 
      (∀ entity, w.condition.guardEntity? = some entity → P (.sensor (Entity.componentId entity))) →
      Colors P fill outline → ∀ l ∈ block fill outline, ∀ ref ∈ references l, P ref)
    (hguard : ∀ entity, w.condition.guardEntity? = some entity → Entity.componentId entity ∈ S)
    (hr : r.Provides S K) {names : Option String × String}
    (h : runWith (p.register s) r = (.ok names, after)) :
    after.Provides S ({ref | ∃ l ∈ block names.1 names.2, ref ∈ references l} ∪ K) := by
  obtain ⟨hfill, houtline, hafter⟩ := provides_register hr h
  refine hafter.lines (fun ref href => .inr (.inr href)) (hblock hguard ⟨fun f hf => ?_, ?_⟩)
  · exact ⟨hfill f hf, hafter.holds _ (.inr (.inl ⟨f, hf, rfl⟩))⟩
  · exact ⟨houtline, hafter.holds _ (.inl rfl)⟩

end Shape

namespace Rectangle

variable {refOf : String → Reference}

theorem isArgument_box (r : Rect) : ∀ a ∈ boxArguments r, IsArgument refOf P a := by
  simp only [boxArguments, List.forall_mem_cons, List.not_mem_nil, false_implies, implies_true, and_true]
  exact ⟨isArgument_pixelText _, isArgument_pixelText _, isArgument_pixelText _, isArgument_pixelText _⟩

theorem isArgument_nested (r : Rect) : ∀ a ∈ nestedArguments r, IsArgument refOf P a := by
  have hsum : ∀ (p : Pixel) {rest : String}, IsMute rest.toList → IsArgument refOf P (pixelText p ++ rest) :=
    fun p rest hrest => .mute (by
      rw [String.toList_append]
      exact (isMute_intText _).append hrest)
  simp only [nestedArguments, List.forall_mem_cons, List.not_mem_nil, false_implies, implies_true, and_true]
  exact ⟨hsum _ (by decide), hsum _ (by decide), hsum _ (by decide), hsum _ (by decide)⟩

theorem refersTo_block (p : Props) {fill : Option String} {outline : String}
    (hguard : ∀ entity, w.condition.guardEntity? = some entity → P (.sensor (Entity.componentId entity)))
    (hcolors : Shape.Colors P fill outline) :
    ∀ l ∈ block p w fill outline, ∀ ref ∈ references l, P ref := by
  have hcolored : ∀ {arguments : List String} {color : String},
      (∀ a ∈ arguments, IsArgument .font P a) → IsColorName color ∧ P (.color color) →
        ∀ a ∈ arguments ++ [color], IsArgument .font P a := fun harguments hcolor =>
    List.forall_mem_append.mpr ⟨harguments, List.forall_mem_singleton.mpr (.color hcolor.1 hcolor.2)⟩
  have hstart := Block.refersTo_start (schema.bag p) aliases hguard
  refine (Shape.refersTo_outline (Shape.refersTo_fill hstart fun f hf => ?_) _ ?_ ?_).finish
  · exact references_call ⟨⟨by decide, by decide⟩, by decide, fun _ => rfl⟩
      (hcolored (isArgument_box _) (hcolors.fill f hf))
  · exact references_call ⟨⟨by decide, by decide⟩, by decide, fun _ => rfl⟩
      (hcolored (isArgument_box _) hcolors.outline)
  · exact references_call ⟨⟨by decide, by decide⟩, by decide, fun _ => rfl⟩
      (hcolored (isArgument_nested _) hcolors.outline)

theorem provides_procedural {ls : List String}
    (hguard : ∀ entity, w.condition.guardEntity? = some entity → Entity.componentId entity ∈ S)
    (hr : r.Provides S K) (h : runWith (procedural s w) r = (.ok ls, after)) :
    after.Provides S ({ref | ∃ l ∈ ls, ref ∈ references l} ∪ K) := by
  unfold procedural at h
  obtain ⟨p, middle, hp, hrest⟩ := ok_of_bind h
  obtain ⟨-, rfl⟩ := ok_of_ofExcept hp
  obtain ⟨names, last, hnames, hblock⟩ := ok_of_bind hrest
  obtain ⟨rfl, rfl⟩ := ok_of_pure hblock
  exact Shape.provides_block (refersTo_block p) hguard hr hnames

theorem find?_retained {n : RetainedNode} {ns : List RetainedNode} (h : retained s r w = .ok ns)
    (hn : n ∈ ns) {key : String} (hkey : key = "text_font" ∨ key = "text") : n.props.find? key = none := by
  obtain ⟨p, -, hnodes⟩ := exists_of_bind h
  rw [eq_of_mem_pure hnodes hn]
  rcases hkey with rfl | rfl
  all_goals simp [RetainedNode.putText, RetainedNode.putCount, RetainedNode.find?_put,
    RetainedNode.find?_putTextIf, RetainedNode.find?_ofWidget]

theorem declares : kind.Declares fun _ _ => ∅ := by
  refine .of_plain rfl (fun hs hw => provides_procedural (hw.guard hs)) ?_
  intro s w r ns h n hn key hkey
  exact find?_retained (r := r) h hn hkey

end Rectangle

namespace Circle

theorem isArgument_center {refOf : String → Reference} (r : Rect) {radius color : String}
    (hradius : IsMute radius.toList) (hcolor : IsColorName color ∧ P (.color color)) :
    ∀ a ∈ centerArguments r ++ [radius, color], IsArgument refOf P a := by
  simp only [centerArguments, List.cons_append, List.nil_append, List.forall_mem_cons, List.not_mem_nil,
    false_implies, implies_true, and_true]
  exact ⟨isArgument_pixelText _, isArgument_pixelText _, .mute hradius, .color hcolor.1 hcolor.2⟩

theorem refersTo_block (p : Props) {fill : Option String} {outline : String}
    (hguard : ∀ entity, w.condition.guardEntity? = some entity → P (.sensor (Entity.componentId entity)))
    (hcolors : Shape.Colors P fill outline) :
    ∀ l ∈ block p w fill outline, ∀ ref ∈ references l, P ref := by
  have hradius : IsMute (pixelText w.rect.innerRadius).toList := isMute_intText _
  have hnested : IsMute (pixelText w.rect.innerRadius ++ " - i").toList := by
    rw [String.toList_append]
    exact hradius.append (by decide)
  have hstart := Block.refersTo_start (schema.bag p) aliases hguard
  refine (Shape.refersTo_outline (Shape.refersTo_fill hstart fun f hf => ?_) _ ?_ ?_).finish
  · exact references_call ⟨⟨by decide, by decide⟩, by decide, fun _ => rfl⟩
      (isArgument_center _ hradius (hcolors.fill f hf))
  · exact references_call ⟨⟨by decide, by decide⟩, by decide, fun _ => rfl⟩
      (isArgument_center _ hradius hcolors.outline)
  · exact references_call ⟨⟨by decide, by decide⟩, by decide, fun _ => rfl⟩
      (isArgument_center _ hnested hcolors.outline)

theorem provides_procedural {ls : List String}
    (hguard : ∀ entity, w.condition.guardEntity? = some entity → Entity.componentId entity ∈ S)
    (hr : r.Provides S K) (h : runWith (procedural s w) r = (.ok ls, after)) :
    after.Provides S ({ref | ∃ l ∈ ls, ref ∈ references l} ∪ K) := by
  unfold procedural at h
  obtain ⟨p, middle, hp, hrest⟩ := ok_of_bind h
  obtain ⟨-, rfl⟩ := ok_of_ofExcept hp
  obtain ⟨names, last, hnames, hblock⟩ := ok_of_bind hrest
  obtain ⟨rfl, rfl⟩ := ok_of_pure hblock
  exact Shape.provides_block (refersTo_block p) hguard hr hnames

theorem find?_retained {n : RetainedNode} {ns : List RetainedNode} (h : retained s r w = .ok ns)
    (hn : n ∈ ns) {key : String} (hkey : key = "text_font" ∨ key = "text") : n.props.find? key = none := by
  obtain ⟨p, -, hnodes⟩ := exists_of_bind h
  rw [eq_of_mem_pure hnodes hn]
  rcases hkey with rfl | rfl
  all_goals simp [RetainedNode.putText, RetainedNode.putCount, RetainedNode.putPixel,
    RetainedNode.find?_put, RetainedNode.find?_putTextIf, RetainedNode.find?_ofWidget]

theorem declares : kind.Declares fun _ _ => ∅ := by
  refine .of_plain rfl (fun hs hw => provides_procedural (hw.guard hs)) ?_
  intro s w r ns h n hn key hkey
  exact find?_retained (r := r) h hn hkey

end Circle

namespace Line

theorem references_statement (p : Props) (r : Rect) {color : String} (hname : IsColorName color)
    (hcolor : P (.color color)) : ∀ ref ∈ references (statement p r color), P ref := by
  have hcall : ∀ {name : String}, IsCallName name .font → ∀ {a b c d : String}, IsMute a.toList →
      IsMute b.toList → IsMute c.toList → IsMute d.toList →
      ∀ ref ∈ references (call name [a, b, c, d, color]), P ref := by
    intro name hcallName a b c d ha hb hc hd
    refine references_call hcallName ?_
    simp only [List.forall_mem_cons, List.not_mem_nil, false_implies, implies_true, and_true]
    exact ⟨.mute ha, .mute hb, .mute hc, .mute hd, .color hname hcolor⟩
  have hline : IsCallName "line" .font := ⟨⟨by decide, by decide⟩, by decide, fun _ => rfl⟩
  have hfilled : IsCallName "filled_rectangle" .font :=
    ⟨⟨by decide, by decide⟩, by decide, fun _ => rfl⟩
  have hpixel : ∀ q : Pixel, IsMute (pixelText q).toList := fun _ => isMute_intText _
  have hcount : IsMute (countText (stroke p)).toList := isMute_natText _
  unfold statement
  cases p.orientation with
  | horizontal =>
    cases stroke p == 1 with
    | true => exact hcall hline (hpixel _) (hpixel _) (hpixel _) (hpixel _)
    | false => exact hcall hfilled (hpixel _) (hpixel _) (hpixel _) hcount
  | vertical =>
    cases stroke p == 1 with
    | true => exact hcall hline (hpixel _) (hpixel _) (hpixel _) (hpixel _)
    | false => exact hcall hfilled (hpixel _) (hpixel _) hcount (hpixel _)

theorem provides_procedural {ls : List String}
    (hguard : ∀ entity, w.condition.guardEntity? = some entity → Entity.componentId entity ∈ S)
    (hr : r.Provides S K) (h : runWith (procedural s w) r = (.ok ls, after)) :
    after.Provides S ({ref | ∃ l ∈ ls, ref ∈ references l} ∪ K) := by
  unfold procedural at h
  obtain ⟨p, middle, hp, hrest⟩ := ok_of_bind h
  obtain ⟨-, rfl⟩ := ok_of_ofExcept hp
  obtain ⟨color, last, hcolor, hblock⟩ := ok_of_bind hrest
  obtain ⟨hname, hprovides⟩ := hr.registerColor hcolor
  obtain ⟨rfl, rfl⟩ := ok_of_pure hblock
  have hstart := Block.refersTo_start (P := after.Holds S) (schema.bag p) aliases hguard
  refine hprovides.lines (Set.subset_insert _ _) (hstart.line ?_).finish
  exact references_statement p w.rect hname (hprovides.holds _ (Set.mem_insert _ _))

theorem find?_retained {n : RetainedNode} {ns : List RetainedNode} (h : retained s r w = .ok ns)
    (hn : n ∈ ns) {key : String} (hkey : key = "text_font" ∨ key = "text") : n.props.find? key = none := by
  obtain ⟨p, -, hnodes⟩ := exists_of_bind h
  rw [eq_of_mem_pure hnodes hn]
  rcases hkey with rfl | rfl
  all_goals
    simp only [RetainedNode.putText, RetainedNode.putCount, RetainedNode.putPixel, RetainedNode.find?_put]
    rfl

theorem declares : kind.Declares fun _ _ => ∅ := by
  refine .of_plain rfl (fun hs hw => provides_procedural (hw.guard hs)) ?_
  intro s w r ns h n hn key hkey
  exact find?_retained (r := r) h hn hkey

end Line

/-! ## Images and ellipses -/

theorem provides_nothing {k : WidgetKind} (hk : k.procedural = fun _ _ => pure []) {ls : List String}
    (hr : r.Provides S K) (h : runWith (k.procedural s w) r = (.ok ls, after)) :
    after.Provides S ({ref | ∃ l ∈ ls, ref ∈ references l} ∪ K) := by
  rw [hk] at h
  obtain ⟨rfl, rfl⟩ := ok_of_pure h
  exact hr.lines (Set.Subset.refl K) fun _ hl => absurd hl List.not_mem_nil

theorem Image.declares : Image.kind.Declares fun _ _ => ∅ := by
  refine .of_plain rfl (fun _ _ => provides_nothing rfl) ?_
  intro s w r ns h n hn key hkey
  obtain ⟨p, -, hrest⟩ := exists_of_bind h
  obtain ⟨source, -, hnodes⟩ := exists_of_bind hrest
  rw [eq_of_mem_pure hnodes hn]
  rcases hkey with rfl | rfl
  all_goals simp [RetainedNode.putText, RetainedNode.putCount, RetainedNode.putPixel,
    RetainedNode.find?_put, RetainedNode.find?_ofWidget]

theorem Ellipse.declares : Ellipse.kind.Declares fun _ _ => ∅ := by
  refine .of_plain rfl (fun _ _ => provides_nothing rfl) ?_
  intro s w r ns h n hn key hkey
  cases h
  exact absurd hn List.not_mem_nil

/-! ## Texts and labels -/

/-- The font of a widget, as a kind reads it. -/
def fontOf {Q : Type} (schema : Schema Q) (font : Q → FontRequest) (_ : Setting) (w : Widget) :
    Set Reference :=
  {ref | ∃ p, schema.readForExport w = .ok p ∧ ref = .font (font p).id}

theorem provides_fontOf {Q : Type} {schema : Schema Q} {font : Q → FontRequest} {u : Unit}
    (hr : r.Provides S K) (h : runWith (do
      let p ← Emission.ofExcept (schema.readForExport w)
      let _ ← Emission.register (Resources.addFont (font p))) r = (.ok u, after)) :
    after.Provides S (fontOf schema font s w ∪ K) := by
  obtain ⟨p, middle, hp, hrest⟩ := ok_of_bind h
  obtain ⟨hread, rfl⟩ := ok_of_ofExcept hp
  obtain ⟨name, last, hfont, hend⟩ := ok_of_bind hrest
  obtain ⟨rfl, -, hprovides⟩ := hr.registerFont hfont
  obtain ⟨-, rfl⟩ := ok_of_pure hend
  refine hprovides.refs fun ref href => hprovides.holds ref (href.imp_left ?_)
  rintro ⟨q, hq, rfl⟩
  rw [Except.ok.inj (hread.symm.trans hq)]

/-- A node that shows the state of the entity of its widget, if there is one. -/
theorem isOf_shown {k : WidgetKind} (hw : w.ReadsWithin k s S)
    (hk : k.descriptor.supports .resolveEntities = true) {n : RetainedNode} {font text : String}
    {precision : UInt8} {C : Set Reference} (hfont : n.props.find? "text_font" = some (.string font))
    (hmem : .font font ∈ C) (htext : n.props.find? "text" = some (.string text))
    (hlambda : ∀ read, entityRead? w = some read →
      RetainedNode.codeOf text = stateLambda read precision) : n.IsOf w C S where
  font := fun v hv => ⟨font, Option.some.inj (hv.symm.trans hfont), hmem⟩
  lambda := by
    rintro hsome id ⟨shown, hshown, hid⟩
    obtain ⟨read, hread⟩ := Option.isSome_iff_exists.mp hsome
    rw [Json.string.inj (Option.some.inj (hshown.symm.trans htext)), hlambda read hread,
      references_stateLambda (isName_entityRead? hread)] at hid
    exact Reference.sensor.inj (List.mem_singleton.mp hid) ▸ hw.shown hk read hread

namespace TextBlock

theorem references_statement (p : Props) {font color : String} (hfont : IsName font ∧ P (.font font))
    (hcolor : IsColorName color ∧ P (.color color))
    (hread : ∀ read, entityRead? w = some read → P (.sensor read.id)) :
    ∀ ref ∈ references (statement p w font color), P ref := by
  have hplace : ∀ a ∈ [pixelText (p.alignment.anchorPoint w.rect).1,
      pixelText (p.alignment.anchorPoint w.rect).2, componentRef font, color, p.alignment.textAlign],
      IsArgument .font P a := by
    simp only [List.forall_mem_cons, List.not_mem_nil, false_implies, implies_true, and_true]
    exact ⟨isArgument_pixelText _, isArgument_pixelText _, .component hfont.1 hfont.2,
      .color hcolor.1 hcolor.2, .mute (isMute_textAlign _)⟩
  unfold statement
  cases hentity : entityRead? w with
  | some read =>
    refine references_call ⟨⟨by decide, by decide⟩, by decide, fun _ => rfl⟩
      (List.forall_mem_append.mpr ⟨hplace, ?_⟩)
    exact List.forall_mem_cons.mpr ⟨.literal _,
      List.forall_mem_singleton.mpr (.state (isName_entityRead? hentity) (hread read hentity))⟩
  | none =>
    exact references_call ⟨⟨by decide, by decide⟩, by decide, fun _ => rfl⟩
      (List.forall_mem_append.mpr ⟨hplace, List.forall_mem_singleton.mpr (.literal _)⟩)

theorem provides_procedural {ls : List String} (hs : s.target = .procedural)
    (hw : w.ReadsWithin kind s S) (hr : r.Provides S K)
    (h : runWith (procedural s w) r = (.ok ls, after)) :
    after.Provides S ({ref | ∃ l ∈ ls, ref ∈ references l} ∪ K) := by
  unfold procedural at h
  obtain ⟨p, middle, hp, hrest⟩ := ok_of_bind h
  obtain ⟨-, rfl⟩ := ok_of_ofExcept hp
  obtain ⟨font, colored, hfont, hrest'⟩ := ok_of_bind hrest
  obtain ⟨-, hfontName, hfonts⟩ := hr.registerFont hfont
  obtain ⟨color, last, hcolor, hblock⟩ := ok_of_bind hrest'
  obtain ⟨hcolorName, hprovides⟩ := hfonts.registerColor hcolor
  obtain ⟨rfl, rfl⟩ := ok_of_pure hblock
  have hstart := Block.refersTo_start (P := after.Holds S) (schema.bag p) aliases (hw.guard hs)
  refine hprovides.lines (fun ref href => .inr (.inr href)) (hstart.line ?_).finish
  exact references_statement p ⟨hfontName, hprovides.holds _ (.inr (.inl rfl))⟩
    ⟨hcolorName, hprovides.holds _ (.inl rfl)⟩ (hw.shown rfl)

theorem declares : kind.Declares (fontOf schema Props.font) where
  collect := fun _ hr h => provides_fontOf hr h
  procedural := by
    intro s w S K r ls after hs hw hr h
    have hprovides := provides_procedural hs hw hr h
    exact hprovides.refs fun ref href => hprovides.holds ref (href.imp_right .inr)
  retained := by
    intro s w S r ns hw h n hn
    obtain ⟨p, hp, hnodes⟩ := exists_of_bind h
    have hnode := eq_of_mem_pure hnodes hn
    have hfont : n.props.find? "text_font" = some (.string p.font.id) := by
      rw [hnode]
      simp [RetainedNode.putText, RetainedNode.find?_put]
    have htext : n.props.find? "text" = some (shownText p w) := by
      rw [hnode]
      simp [RetainedNode.putText, RetainedNode.find?_put]
    obtain ⟨text, hshown⟩ : ∃ text, shownText p w = .string text := by
      unfold shownText
      cases entityRead? w with
      | some read => exact ⟨_, rfl⟩
      | none => exact ⟨_, rfl⟩
    rw [hshown] at htext
    have hlambda : ∀ read, entityRead? w = some read →
        RetainedNode.codeOf text = stateLambda read p.precision := by
      intro read hread
      rw [shownText, hread] at hshown
      exact RetainedNode.codeOf_lambdaValue hshown
    exact isOf_shown hw rfl hfont ⟨p, hp, rfl⟩ htext hlambda

end TextBlock

namespace Label

theorem declares : kind.Declares (fontOf schema Props.font) where
  collect := fun _ hr h => provides_fontOf hr h
  procedural := by
    intro s w S K r ls after _ _ hr h
    have hprovides := provides_nothing rfl hr h
    exact hprovides.refs fun ref href => hprovides.holds ref (href.imp_right .inr)
  retained := by
    intro s w S r ns hw h n hn
    obtain ⟨p, hp, hnodes⟩ := exists_of_bind h
    have hnode := eq_of_mem_pure hnodes hn
    have hfont : n.props.find? "text_font" = some (.string p.font.id) := by
      rw [hnode]
      simp [RetainedNode.putText, RetainedNode.putCount, RetainedNode.find?_put,
        RetainedNode.find?_putTextIf]
    have htext : n.props.find? "text" = some (.string (shownText p w)) := by
      rw [hnode]
      simp [RetainedNode.putText, RetainedNode.putCount, RetainedNode.find?_put,
        RetainedNode.find?_putTextIf]
    have hlambda : ∀ read, entityRead? w = some read →
        RetainedNode.codeOf (shownText p w) = stateLambda read 1 := by
      intro read hread
      rw [shownText, hread]
      exact RetainedNode.codeOf_quoted (isPrintable_stateLambda (isName_entityRead? hread) 1)
    exact isOf_shown hw rfl hfont ⟨p, hp, rfl⟩ htext hlambda

end Label

/-! ## Clocks -/

namespace Clock

/-- The fonts of a clock. -/
def collected (_ : Setting) (w : Widget) : Set Reference :=
  {ref | ∃ p, schema.readForExport w = .ok p ∧ ∃ f ∈ p.fonts, ref = .font f.id}

theorem provides_addFonts (fonts : List FontRequest) (hr : r.Provides S K) :
    (addFonts fonts r).Provides S ({ref | ∃ f ∈ fonts, ref = .font f.id} ∪ K) := by
  induction fonts generalizing K r with
  | nil => exact hr.refs fun ref href => hr.holds ref (href.resolve_left (by simp))
  | cons f fonts ih =>
    have hrest := ih (hr.addFont f)
    refine hrest.refs fun ref href => hrest.holds ref ?_
    rcases href with ⟨g, hg, rfl⟩ | href
    · rcases List.mem_cons.mp hg with rfl | hg
      · exact .inr (.inl rfl)
      · exact .inl ⟨g, hg, rfl⟩
    · exact .inr (.inr href)

theorem provides_collect {u : Unit} (hr : r.Provides S K)
    (h : runWith (collect s w) r = (.ok u, after)) : after.Provides S (collected s w ∪ K) := by
  unfold collect at h
  obtain ⟨p, middle, hp, hrest⟩ := ok_of_bind h
  obtain ⟨hread, rfl⟩ := ok_of_ofExcept hp
  have hafter : after = addFonts p.fonts middle := (congrArg Prod.snd hrest).symm
  have hprovides := provides_addFonts p.fonts hr
  rw [← hafter] at hprovides
  refine hprovides.refs fun ref href => hprovides.holds ref (href.imp_left ?_)
  rintro ⟨q, hq, f, hf, rfl⟩
  rw [← Except.ok.inj (hread.symm.trans hq)] at hf
  exact ⟨f, hf, rfl⟩

theorem references_timeCall (x y : Pixel) {font color align : String} (pattern : String)
    (hfont : IsName font ∧ P (.font font)) (hcolor : IsColorName color ∧ P (.color color))
    (halign : IsMute align.toList) : ∀ ref ∈ references (timeCall x y font color align pattern), P ref := by
  refine references_call ⟨⟨by decide, by decide⟩, by decide, fun _ => rfl⟩ ?_
  simp only [List.forall_mem_cons, List.not_mem_nil, false_implies, implies_true, and_true]
  exact ⟨isArgument_pixelText _, isArgument_pixelText _, .component hfont.1 hfont.2,
    .color hcolor.1 hcolor.2, .mute halign, .literal _, .mute (by decide)⟩

theorem refersTo_block (p : Props) {calls : List String}
    (hguard : ∀ entity, w.condition.guardEntity? = some entity → P (.sensor (Entity.componentId entity)))
    (hcalls : ∀ c ∈ calls, ∀ ref ∈ references c, P ref) :
    ∀ l ∈ block s w p calls, ∀ ref ∈ references l, P ref := by
  have hstart := (Block.refersTo_start (schema.bag p) aliases hguard).openScope
  have hnow : references ("auto now = " ++ componentRef s.options.timeId ++ ".now();") = [] := by
    rw [String.append_assoc, references_now]
  exact ((hstart.plain hnow).foldl_line hcalls).closeScope.finish

theorem provides_procedural {ls : List String} (hs : s.target = .procedural)
    (hw : w.ReadsWithin kind s S) (hr : r.Provides S K)
    (h : runWith (procedural s w) r = (.ok ls, after)) :
    after.Provides S ({ref | ∃ l ∈ ls, ref ∈ references l} ∪ K) := by
  unfold procedural at h
  obtain ⟨p, middle, hp, hrest⟩ := ok_of_bind h
  obtain ⟨-, rfl⟩ := ok_of_ofExcept hp
  obtain ⟨color, colored, hcolor, hfonts⟩ := ok_of_bind hrest
  obtain ⟨hcolorName, hcolors⟩ := hr.registerColor hcolor
  cases hsecond : p.format.secondaryPattern? with
  | some second =>
    rw [hsecond] at hfonts
    obtain ⟨timeFont, timed, htime, hrest'⟩ := ok_of_bind hfonts
    obtain ⟨-, htimeName, htimed⟩ := hcolors.registerFont htime
    obtain ⟨dateFont, last, hdate, hblock⟩ := ok_of_bind hrest'
    obtain ⟨-, hdateName, hprovides⟩ := htimed.registerFont hdate
    obtain ⟨rfl, rfl⟩ := ok_of_pure hblock
    have htimeFont : IsName timeFont ∧ after.Holds S (.font timeFont) :=
      ⟨htimeName, hprovides.holds _ (.inr (.inl rfl))⟩
    have hdateFont : IsName dateFont ∧ after.Holds S (.font dateFont) :=
      ⟨hdateName, hprovides.holds _ (.inl rfl)⟩
    have hconstant : IsColorName color ∧ after.Holds S (.color color) :=
      ⟨hcolorName, hprovides.holds _ (.inr (.inr (.inl rfl)))⟩
    refine hprovides.lines (fun ref href => .inr (.inr (.inr href))) (refersTo_block p (hw.guard hs) ?_)
    simp only [stackedCalls, List.forall_mem_cons, List.not_mem_nil, false_implies, implies_true,
      and_true]
    exact ⟨references_timeCall _ _ _ htimeFont hconstant (isMute_textAlign _),
      references_timeCall _ _ _ hdateFont hconstant (isMute_textAlign _)⟩
  | none =>
    rw [hsecond] at hfonts
    obtain ⟨font, last, hfont, hblock⟩ := ok_of_bind hfonts
    obtain ⟨-, hfontName, hprovides⟩ := hcolors.registerFont hfont
    obtain ⟨rfl, rfl⟩ := ok_of_pure hblock
    refine hprovides.lines (fun ref href => .inr (.inr href)) (refersTo_block p (hw.guard hs) ?_)
    exact List.forall_mem_singleton.mpr (references_timeCall _ _ _
      ⟨hfontName, hprovides.holds _ (.inl rfl)⟩ ⟨hcolorName, hprovides.holds _ (.inr (.inl rfl))⟩
      (isMute_textAlign _))

theorem references_lambda (s : Setting) (p : Props) {text : String}
    (h : lambdaValue ["auto now = " ++ componentRef s.options.timeId ++ ".now();",
      "return now.strftime(\"" ++ wholePattern p.format ++ "\").c_str();"] = .string text) :
    references (RetainedNode.codeOf text) = [] := by
  have hcode : RetainedNode.codeOf text = "auto now = " ++ (componentRef s.options.timeId ++ ".now();" ++
      "\n" ++ "return now.strftime(\"" ++ wholePattern p.format ++ "\").c_str();") := by
    refine RetainedNode.codeOf_block ?_
    rw [← Json.string.inj h]
    simp [String.join]
  rw [hcode, references_now]

theorem declares : kind.Declares collected where
  collect := fun _ hr h => provides_collect hr h
  procedural := by
    intro s w S K r ls after hs hw hr h
    have hprovides := provides_procedural hs hw hr h
    exact hprovides.refs fun ref href => hprovides.holds ref (href.imp_right .inr)
  retained := by
    intro s w S r ns hw h n hn
    obtain ⟨p, hp, hnodes⟩ := exists_of_bind h
    have hnode := eq_of_mem_pure hnodes hn
    have hfont : n.props.find? "text_font" =
        some (.string (if p.format = .timeDate then p.timeFont else p.singleFont).id) := by
      rw [hnode]
      simp [RetainedNode.putText, RetainedNode.find?_put]
    have htext : n.props.find? "text" = some (lambdaValue
        ["auto now = " ++ componentRef s.options.timeId ++ ".now();",
          "return now.strftime(\"" ++ wholePattern p.format ++ "\").c_str();"]) := by
      rw [hnode]
      simp [RetainedNode.putText, RetainedNode.find?_put]
    refine ⟨fun v hv => ⟨_, Option.some.inj (hv.symm.trans hfont), p, hp, _, ?_, rfl⟩, ?_⟩
    · unfold Props.fonts
      split
      · exact List.mem_cons_self
      · exact List.mem_singleton.mpr rfl
    · rintro - id ⟨text, hshown, hid⟩
      rw [references_lambda s p (Option.some.inj (htext.symm.trans hshown))] at hid
      exact absurd hid List.not_mem_nil

end Clock

/-! ## Charts -/

namespace Chart

/-- The graph of a chart, in the drawing code. -/
def collected (s : Setting) (w : Widget) : Set Reference :=
  {ref | s.target = .procedural ∧ ref = .graph (graphId w)}

theorem provides_titleFont {font : Option String} (hr : r.Provides S K)
    (h : runWith (addTitleFont w) r = (.ok font, after)) :
    after.Provides S ({ref | ∃ id ∈ font, ref = .font id} ∪ K) ∧ ∀ id ∈ font, IsName id := by
  unfold addTitleFont at h
  split at h
  · rw [runWith_map] at h
    have hfont : some titleFont.id = font := Except.ok.inj (congrArg Prod.fst h)
    have hafter : (Resources.addFont titleFont r).2 = after := congrArg Prod.snd h
    have hprovides := hr.addFont titleFont
    rw [hafter] at hprovides
    refine ⟨hprovides.refs fun ref href => hprovides.holds ref ?_, fun id hid => ?_⟩
    · rcases href with ⟨id, hid, rfl⟩ | href
      · rw [← hfont] at hid
        exact .inl (congrArg _ (Option.mem_some.mp hid).symm)
      · exact .inr href
    · rw [← hfont] at hid
      exact Option.mem_some.mp hid ▸ titleFont.isName_id
  · obtain ⟨rfl, rfl⟩ := ok_of_pure h
    refine ⟨hr.refs fun ref href => hr.holds ref (href.resolve_left ?_), fun _ hid => nomatch hid⟩
    rintro ⟨id, hid, -⟩
    exact nomatch hid

theorem provides_collect {u : Unit} (hw : w.ReadsWithin kind s S) (hr : r.Provides S K)
    (h : runWith (collect s w) r = (.ok u, after)) : after.Provides S (collected s w ∪ K) := by
  unfold collect at h
  obtain ⟨p, first, hp, hstyled⟩ := ok_of_bind h
  obtain ⟨-, rfl⟩ := ok_of_ofExcept hp
  obtain ⟨style, second, hstyle, hshown⟩ := ok_of_bind hstyled
  obtain ⟨-, rfl⟩ := ok_of_ofExcept hstyle
  obtain ⟨read, third, hread, htitled⟩ := ok_of_bind hshown
  obtain ⟨hentity, rfl⟩ := ok_of_ofExcept hread
  obtain ⟨font, titled, hfont, hgraph⟩ := ok_of_bind htitled
  have htitle := (provides_titleFont hr hfont).1
  split at hgraph
  · rename_i hs
    obtain ⟨id, last, hadd, hend⟩ := ok_of_bind hgraph
    obtain ⟨-, hlast⟩ := ok_of_register hadd
    obtain ⟨-, rfl⟩ := ok_of_pure hend
    have hsensor : read.id ∈ S := by
      refine hw.shown rfl read ?_
      unfold entityOf at hentity
      split at hentity
      · rename_i hshows
        exact hshows.trans (congrArg some (Except.ok.inj hentity))
      · exact nomatch hentity
    have hprovides := htitle.addGraph (g := graph p w read) hsensor
    rw [← hlast] at hprovides
    refine hprovides.refs fun ref href => hprovides.holds ref ?_
    exact href.imp (fun hc => hc.2) .inr
  · rename_i hs
    obtain ⟨-, rfl⟩ := ok_of_pure hgraph
    refine htitle.refs fun ref href => htitle.holds ref (.inr (href.resolve_left fun hc => hs hc.1))

/-- The calls of a chart. The graph is drawn by a call of its own, whose component is a graph. -/
theorem refersTo_block (p : Props) {color : String} {font : Option String}
    (hguard : ∀ entity, w.condition.guardEntity? = some entity → P (.sensor (Entity.componentId entity)))
    (hcolor : IsColorName color ∧ P (.color color))
    (hfont : ∀ id ∈ font, IsName id ∧ P (.font id)) (hgraph : P (.graph (graphId w))) :
    ∀ l ∈ block p w color font, ∀ ref ∈ references l, P ref := by
  have hframe : ∀ ref ∈ references (frameCall w.rect color), P ref := by
    refine references_call ⟨⟨by decide, by decide⟩, by decide, fun _ => rfl⟩ ?_
    simp only [List.forall_mem_cons, List.not_mem_nil, false_implies, implies_true, and_true]
    exact ⟨isArgument_pixelText _, isArgument_pixelText _, isArgument_pixelText _,
      isArgument_pixelText _, .color hcolor.1 hcolor.2⟩
  have htitle : ∀ {id : String}, id ∈ font → ∀ title, ∀ ref ∈ references (titleCall w.rect id color title),
      P ref := by
    intro id hid title
    refine references_call ⟨⟨by decide, by decide⟩, by decide, fun _ => rfl⟩ ?_
    simp only [List.forall_mem_cons, List.not_mem_nil, false_implies, implies_true, and_true]
    exact ⟨isArgument_pixelText _, isArgument_pixelText _, .component (hfont id hid).1 (hfont id hid).2,
      .color hcolor.1 hcolor.2, .mute (by decide), .literal _⟩
  have hdrawn : ∀ ref ∈ references (graphCall w color), P ref := by
    have hname : IsCallName "graph" .graph := ⟨⟨by decide, by decide⟩, by decide, fun _ => rfl⟩
    refine references_call hname ?_
    simp only [List.forall_mem_cons, List.not_mem_nil, false_implies, implies_true, and_true]
    exact ⟨isArgument_pixelText _, isArgument_pixelText _, .component (isName_graphId w) hgraph,
      .color hcolor.1 hcolor.2⟩
  have hstart := Block.refersTo_start (schema.bag p) [] hguard
  have hbordered : (if p.border then (Block.start w (schema.bag p) []).line (frameCall w.rect color)
      else Block.start w (schema.bag p) []).RefersTo P := by
    split
    · exact hstart.line hframe
    · exact hstart
  unfold block
  dsimp only
  split
  · exact ((hbordered.line (htitle rfl _)).line hdrawn).finish
  · exact (hbordered.line hdrawn).finish

theorem provides_procedural {ls : List String} (hs : s.target = .procedural)
    (hw : w.ReadsWithin kind s S) (hr : r.Provides S (collected s w ∪ K))
    (h : runWith (procedural s w) r = (.ok ls, after)) :
    after.Provides S ({ref | ∃ l ∈ ls, ref ∈ references l} ∪ K) := by
  unfold procedural at h
  obtain ⟨p, first, hp, hshown⟩ := ok_of_bind h
  obtain ⟨-, rfl⟩ := ok_of_ofExcept hp
  obtain ⟨read, second, hread, hdrawn⟩ := ok_of_bind hshown
  obtain ⟨-, rfl⟩ := ok_of_ofExcept hread
  obtain ⟨color, colored, hcolor, htitled⟩ := ok_of_bind hdrawn
  obtain ⟨hcolorName, hcolors⟩ := hr.registerColor hcolor
  obtain ⟨font, last, hfont, hblock⟩ := ok_of_bind htitled
  obtain ⟨rfl, rfl⟩ := ok_of_pure hblock
  obtain ⟨hprovides, hnames⟩ := provides_titleFont hcolors hfont
  refine hprovides.lines (fun ref href => .inr (.inr (.inr href)))
    (refersTo_block p (hw.guard hs) ⟨hcolorName, hprovides.holds _ (.inr (.inl rfl))⟩ (fun id hid => ?_) ?_)
  · exact ⟨hnames id hid, hprovides.holds _ (.inl ⟨id, hid, rfl⟩)⟩
  · exact hprovides.holds _ (.inr (.inr (.inl ⟨hs, rfl⟩)))

theorem declares : kind.Declares collected where
  collect := fun hw hr h => provides_collect hw hr h
  procedural := fun hs hw hr h => provides_procedural hs hw hr h
  retained := by
    intro s w S r ns _ h n hn
    obtain ⟨p, -, hstyled⟩ := exists_of_bind h
    obtain ⟨style, -, hshown⟩ := exists_of_bind hstyled
    obtain ⟨read, -, hnodes⟩ := exists_of_bind hshown
    refine RetainedNode.isOf_of_none ?_
    rw [eq_of_mem_pure hnodes hn]
    rintro key (rfl | rfl)
    all_goals simp [RetainedNode.putText, RetainedNode.putCount, RetainedNode.find?_put,
      RetainedNode.find?_ofWidget]

end Chart

theorem declares_of_builtin {k : WidgetKind} (hk : k ∈ builtin) : ∃ collected, k.Declares collected := by
  simp only [builtin, List.mem_cons, List.not_mem_nil, or_false] at hk
  rcases hk with rfl | rfl | rfl | rfl | rfl | rfl | rfl | rfl | rfl
  · exact ⟨_, Clock.declares⟩
  · exact ⟨_, TextBlock.declares⟩
  · exact ⟨_, Rectangle.declares⟩
  · exact ⟨_, Circle.declares⟩
  · exact ⟨_, Line.declares⟩
  · exact ⟨_, Chart.declares⟩
  · exact ⟨_, Label.declares⟩
  · exact ⟨_, Image.declares⟩
  · exact ⟨_, Ellipse.declares⟩

end Dashboard.Kind
