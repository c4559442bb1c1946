import Dashboard.Proofs.Compile.Registered
import Dashboard.Proofs.Kind.Declared
import Dashboard.Proofs.Kind.Drawn
import Dashboard.Proofs.Kind.Schemas
import Dashboard.Proofs.Rebuild.Properties
/-!
# Nodes of the built-in kinds

Kind by kind, the node of a widget starts no page, and the fonts of the widget stay on their lines. All
texts of a node are quoted or words, but for those with the tag of code: the lines of code that a kind
writes itself, and texts of the widget that bring the tag along. Colors and sources are written without the
blanks around them, so the tag can also stand behind blanks there.
-/

namespace Dashboard

open Text Emission Json Json.Record Yaml

/-! ## Texts of widgets -/

/-- Properties that are written without the blanks around them. -/
def trimmedKeys : List String := ["color", "bg_color", "border_color", "src"]

/-- A text under the name of a property that a retained document keeps on its line. -/
structure IsKeptText (name text : String) : Prop where
  plain : KeepsLine text
  trimmed : name ∈ trimmedKeys → KeepsLine (trim text)
  family : name = "font_family" → OneLine text

instance (name text : String) : Decidable (IsKeptText name text) :=
  decidable_of_iff (KeepsLine text ∧ (name ∈ trimmedKeys → KeepsLine (trim text)) ∧
    (name = "font_family" → OneLine text)) ⟨fun h => ⟨h.1, h.2.1, h.2.2⟩, fun h => ⟨h.1, h.2, h.3⟩⟩

/-- A widget whose texts a retained document keeps on their lines. -/
structure Widget.KeepsLines (w : Widget) : Prop where
  id : OneLine w.id
  entity : ∀ e, w.entity? = some e → OneLine e
  secondEntity : ∀ e, w.secondEntityId = some e → OneLine e
  props : ∀ e ∈ w.props, e.2.HasText (IsKeptText e.1)

/-- The families of all fonts stay on their lines. -/
def Resources.HasFamilies (r : Resources) : Prop := ∀ e ∈ r.fonts, IsFamily OneLine e.2.family

theorem Resources.HasFamilies.addFont {r : Resources} (h : r.HasFamilies) {f : FontRequest}
    (hf : IsFamily OneLine f.family) : (addFont f r).2.HasFamilies := by
  intro e he
  rcases Table.mem_putNew he with rfl | he
  · exact hf
  · exact h e he

/-- A kind whose fonts stay on their lines and whose nodes start no page. -/
structure WidgetKind.IsInert (k : WidgetKind) : Prop where
  collect : ∀ {s w}, w.KeepsLines → Yields Resources.HasFamilies (fun _ => True) (k.collect s w)
  retained : ∀ {s r w ns}, OneLine s.options.timeId → w.KeepsLines → k.retained s r w = .ok ns →
    ∀ n ∈ ns, n.IsInert

namespace Setting

variable (s : Setting) {value : String}

theorem keepsLine_guiText {color : String} (h : KeepsLine color) : KeepsLine (guiText color) := by
  unfold guiText
  cases Color.rgb? color with
  | none => exact h
  | some c =>
    intro htag
    dsimp only at htag
    rw [startsWith, String.toList_ofList] at htag
    exact absurd htag (by simp)

theorem keepsLine_themeDefault (dark : Bool) : KeepsLine (Color.themeDefault dark) := by
  cases dark <;> decide

theorem keepsLine_guiColor? (h : KeepsLine (trim value)) {role : ColorRole} :
    ∀ color, s.guiColor? value role = some color → KeepsLine color := by
  intro color hcolor
  obtain ⟨c, hc, rfl⟩ := Option.map_eq_some_iff.mp hcolor
  refine keepsLine_guiText ?_
  unfold color? Color.resolve? at hc
  dsimp only at hc
  split at hc
  · split at hc
    · cases hc
    · exact Option.some.inj hc ▸ keepsLine_themeDefault _
  · split at hc
    · exact Option.some.inj hc ▸ keepsLine_themeDefault _
    · exact Option.some.inj hc ▸ h

theorem keepsLine_drawnGuiColor (h : KeepsLine (trim value)) : KeepsLine (s.drawnGuiColor value) := by
  unfold drawnGuiColor
  cases hcolor : s.guiColor? value .outline with
  | none => exact keepsLine_themeDefault _
  | some color => exact s.keepsLine_guiColor? h color hcolor

end Setting

theorem keepsLine_effective {override base : String} (hoverride : KeepsLine (trim override))
    (hbase : KeepsLine (trim base)) : KeepsLine (trim (Color.effective (some override) base)) := by
  unfold Color.effective
  split
  · next c hc =>
    obtain ⟨rfl, -⟩ := nonBlank?_eq_some hc
    split
    · exact hbase
    · rw [trim_trim]
      exact hoverride
  · exact hbase

theorem oneLine_opacityText (opacity : UInt8) : OneLine (opacityText opacity) := by
  unfold opacityText
  by_cases hfull : opacity = 255
  · rw [if_pos hfull]
    decide
  · rw [if_neg hfull]
    by_cases hnone : opacity = 0
    · rw [if_pos hnone]
      decide
    · rw [if_neg hnone]
      exact (oneLine_natText _).append (by decide)

theorem oneLine_guiTextAlign (a : Alignment) : OneLine a.guiTextAlign := by
  unfold Alignment.guiTextAlign
  cases a.horizontal <;> decide

theorem Schema.takes_of_readForExport {P : Type} {schema : Schema P} {T : String → String → Prop} {Q : P → Prop}
    {w : Widget} {p : P} (htexts : schema.record.Takes .value (textsAre T) Q)
    (hdefaults : ∀ f ∈ schema.fields schema.default, f.2.HasText (T f.1))
    (hw : ∀ e ∈ w.props, e.2.HasText (T e.1)) (hp : schema.readForExport w = .ok p) : Q p :=
  takes_of_read htexts hdefaults hw (read_of_readForExport hp)

namespace Kind

variable {s : Setting} {w : Widget} {r : Resources} {ns : List RetainedNode}

/-! ## Code of states -/

theorem isStatement_return {code : String} (h : OneLine code) : IsStatement ("return " ++ code ++ ";") := by
  have hword : "return " = "return" ++ " " := rfl
  exact ⟨"return", " " ++ code, by decide, (by decide : OneLine " ").append h,
    by rw [hword]; simp only [String.append_assoc]⟩

theorem isStatement_stateLambda {read : EntityRead} (h : entityRead? w = some read) (precision : UInt8) :
    IsStatement (stateLambda read precision) := by
  obtain ⟨entity, hread⟩ := entityRead?_eq h
  have hargument : OneLine (stateArgument read) := hread ▸ oneLine_stateArgument entity _
  unfold stateLambda
  cases htext : read.isText with
  | true =>
    rw [if_pos rfl]
    exact isStatement_return hargument
  | false =>
    have hformat : OneLine (stateFormat read precision) := by
      rw [stateFormat, htext, if_neg Bool.false_ne_true]
      exact ((by decide : OneLine "%.").append (oneLine_natText _)).append (by decide)
    have hstart : "return str_sprintf(\"" = "return " ++ "str_sprintf(\"" := rfl
    have hend : ").c_str();" = ").c_str()" ++ ";" := rfl
    have hcall := isStatement_return (((((by decide : OneLine "str_sprintf(\"").append hformat).append
      (by decide : OneLine "\", ")).append hargument).append (by decide : OneLine ").c_str()"))
    rw [if_neg Bool.false_ne_true, hstart, hend]
    simpa only [String.append_assoc] using hcall

theorem yields_family {family : String} {weight size : UInt32} {italic : Bool} (h : IsKeptText "font_family" family) :
    Yields Resources.HasFamilies (fun _ => True)
      (Emission.register (Resources.addFont (.make family weight size italic))) :=
  .register fun _ hr => ⟨trivial, hr.addFont (.inr ⟨family, h.family rfl, rfl⟩)⟩

/-! ## Kinds -/

namespace TextBlock

/-- The texts that a node shows, the family of a font among them. -/
def Props.KeepsTexts (p : Props) : Prop :=
  IsKeptText "text" p.text ∧ IsKeptText "font_family" p.fontFamily ∧ IsKeptText "color" p.color

theorem takes_texts : schema.record.Takes .value (textsAre IsKeptText) Props.KeepsTexts := by
  refine ((((((((Takes.map ?_ (.string ?_)).seq .any).seq (.string ?_)).seq .any).seq .any).seq
    (.string ?_)).seq .any).seq .any).seq .any
  · intro text htext size _ family hfamily weight _ italic _ color hcolor align _ precision _ opacity _
    exact ⟨htext, hfamily, hcolor⟩
  all_goals decide

theorem keepsTexts_of_read {p : Props} (hw : w.KeepsLines) (hp : schema.readForExport w = .ok p) : p.KeepsTexts :=
  Schema.takes_of_readForExport takes_texts (by decide) hw.props hp

theorem isTame_shownText {p : Props} (h : KeepsLine p.text) (w : Widget) : IsTame (shownText p w) := by
  unfold shownText
  split
  · next read hread =>
    exact .code (List.forall_mem_singleton.mpr (isStatement_stateLambda hread p.precision))
  · exact isTame_string h

theorem isInert : kind.IsInert where
  collect := fun hw => by
    refine .bind (.ofExcept fun _ => keepsTexts_of_read hw) fun _ hp => ?_
    exact .bind (yields_family hp.2.1) fun _ _ => .pure trivial
  retained := by
    intro s r w ns _ hw h
    obtain ⟨p, hp, hnodes⟩ := exists_of_bind h
    obtain ⟨htext, -, hcolor⟩ := keepsTexts_of_read hw hp
    cases hnodes
    have hnode : ((RetainedNode.ofWidget "label" w).put "text" (shownText p w)).IsInert :=
      (RetainedNode.isInert_ofWidget (by decide) hw.id).put (by decide) (isTame_shownText htext.plain w)
    refine List.forall_mem_singleton.mpr ((((hnode.putText (by decide) ?_).putText (by decide) ?_).putText
      (by decide) ?_).putText (by decide) ?_)
    · exact keepsLine_of_oneLine (ProceduralDocument.oneLine_fontId _)
    · exact s.keepsLine_drawnGuiColor (hcolor.trimmed (by decide))
    · exact keepsLine_of_oneLine (oneLine_guiTextAlign _)
    · exact keepsLine_of_oneLine (oneLine_opacityText _)

end TextBlock

namespace Clock

/-- The texts that a node shows, the family of a font among them. -/
def Props.KeepsTexts (p : Props) : Prop :=
  IsKeptText "color" p.color ∧ IsKeptText "font_family" p.fontFamily

theorem takes_texts : schema.record.Takes .value (textsAre IsKeptText) Props.KeepsTexts := by
  refine (((((((Takes.map ?_ .any).seq .any).seq .any).seq (.string ?_)).seq .any).seq (.string ?_)).seq
    .any).seq .any
  · intro format _ timeSize _ dateSize _ color hcolor italic _ family hfamily align _ opacity _
    exact ⟨hcolor, hfamily⟩
  all_goals decide

theorem keepsTexts_of_read {p : Props} (hw : w.KeepsLines) (hp : schema.readForExport w = .ok p) : p.KeepsTexts :=
  Schema.takes_of_readForExport takes_texts (by decide) hw.props hp

theorem oneLine_wholePattern (f : TimeFormat) : OneLine (wholePattern f) := by cases f <;> decide

theorem isStatement_now {timeId : String} (h : OneLine timeId) :
    IsStatement ("auto now = " ++ componentRef timeId ++ ".now();") := by
  have hstart : "auto now = " = "auto" ++ " now = " := rfl
  have hend : ".now();" = ".now()" ++ ";" := rfl
  exact ⟨"auto", " now = " ++ componentRef timeId ++ ".now()", by decide,
    ((by decide : OneLine " now = ").append (oneLine_componentRef h)).append (by decide),
    by rw [hstart, hend]; simp only [String.append_assoc]⟩

theorem isStatement_pattern (f : TimeFormat) :
    IsStatement ("return now.strftime(\"" ++ wholePattern f ++ "\").c_str();") := by
  have hstart : "return now.strftime(\"" = "return " ++ "now.strftime(\"" := rfl
  have hend : "\").c_str();" = "\").c_str()" ++ ";" := rfl
  have hcall := isStatement_return (((by decide : OneLine "now.strftime(\"").append (oneLine_wholePattern f)).append
    (by decide : OneLine "\").c_str()"))
  rw [hstart, hend]
  simpa only [String.append_assoc] using hcall

theorem hasFamilies_addFonts {p : Props} (h : IsKeptText "font_family" p.fontFamily) {r : Resources}
    (hr : r.HasFamilies) : (addFonts p.fonts r).HasFamilies := by
  have hfamily : OneLine p.fontFamily := h.family rfl
  unfold addFonts Props.fonts
  split
  · exact (hr.addFont (isFamily_timeFont hfamily)).addFont (isFamily_dateFont hfamily)
  · exact hr.addFont (isFamily_singleFont hfamily)

theorem isInert : kind.IsInert where
  collect := fun hw =>
    .bind (.ofExcept fun _ => keepsTexts_of_read hw) fun _ hp =>
      .modify fun _ hr => hasFamilies_addFonts hp.2 hr
  retained := by
    intro s r w ns htime hw h
    obtain ⟨p, hp, hnodes⟩ := exists_of_bind h
    obtain ⟨hcolor, -⟩ := keepsTexts_of_read hw hp
    cases hnodes
    have hcode := IsTame.code (List.forall_mem_cons.mpr ⟨isStatement_now htime,
      List.forall_mem_singleton.mpr (isStatement_pattern p.format)⟩)
    have hnode : ((RetainedNode.ofWidget "label" w).put "text" _).IsInert :=
      (RetainedNode.isInert_ofWidget (by decide) hw.id).put (by decide) hcode
    refine List.forall_mem_singleton.mpr ((((hnode.putText (by decide) ?_).putText (by decide) ?_).putText
      (by decide) ?_).putText (by decide) ?_)
    · exact keepsLine_of_oneLine (ProceduralDocument.oneLine_fontId _)
    · exact s.keepsLine_drawnGuiColor (hcolor.trimmed (by decide))
    · exact keepsLine_of_oneLine (oneLine_guiTextAlign _)
    · exact keepsLine_of_oneLine (oneLine_opacityText _)

end Clock

namespace Shape.Paint

/-- The colors of a paint keep to their lines. -/
structure KeepsLines (p : Paint) : Prop where
  color : IsKeptText "color" p.color
  fill : IsKeptText "bg_color" p.fillOverride
  outline : IsKeptText "border_color" p.outlineOverride

variable {p : Paint}

theorem KeepsLines.fillColor (h : p.KeepsLines) : KeepsLine (trim p.fillColor) :=
  keepsLine_effective (h.fill.trimmed (by decide)) (h.color.trimmed (by decide))

theorem KeepsLines.outlineColor (h : p.KeepsLines) : KeepsLine (trim p.outlineColor) :=
  keepsLine_effective (h.outline.trimmed (by decide)) (h.color.trimmed (by decide))

theorem KeepsLines.background (h : p.KeepsLines) (s : Setting) :
    (∀ color, (p.background s).1 = some color → KeepsLine color) ∧ OneLine (p.background s).2 := by
  unfold Paint.background
  cases hcolor : s.guiColor? p.fillColor .fill with
  | none => exact ⟨nofun, oneLine_opacityText _⟩
  | some color =>
    dsimp only
    split
    · exact ⟨fun c hc => s.keepsLine_guiColor? h.fillColor c (hcolor.trans hc), oneLine_opacityText _⟩
    · exact ⟨nofun, oneLine_opacityText _⟩

end Shape.Paint

namespace Rectangle

theorem takes_texts : schema.record.Takes .value (textsAre IsKeptText) fun p => p.paint.KeepsLines := by
  refine ((((((Takes.map ?_ .any).seq .any).seq (.string ?_)).seq (.string ?_)).seq (.string ?_)).seq .any).seq .any
  · intro fill _ width _ color hcolor bgColor hbgColor borderColor hborderColor radius _ opacity _
    exact ⟨hcolor, hbgColor, hborderColor⟩
  all_goals decide

theorem isInert : kind.IsInert where
  collect := fun _ => .pure trivial
  retained := by
    intro s r w ns _ hw h
    obtain ⟨p, hp, hnodes⟩ := exists_of_bind h
    have hpaint := Schema.takes_of_readForExport takes_texts (by decide) hw.props hp
    obtain ⟨hcolor, hopacity⟩ := hpaint.background s
    rcases hbackground : p.paint.background s with ⟨color, opacity⟩
    rw [hbackground] at hcolor hopacity
    simp only [hbackground] at hnodes
    cases hnodes
    have hnode : ((RetainedNode.ofWidget "obj" w).putTextIf "bg_color" color).IsInert :=
      (RetainedNode.isInert_ofWidget (by decide) hw.id).putTextIf (by decide) hcolor
    exact List.forall_mem_singleton.mpr (((((hnode.putText (by decide) (keepsLine_of_oneLine hopacity)).putCount
      (by decide) _).putText (by decide) (s.keepsLine_drawnGuiColor hpaint.outlineColor)).putCount (by decide) _))

end Rectangle

namespace Circle

theorem takes_texts : schema.record.Takes .value (textsAre IsKeptText) fun p => p.paint.KeepsLines := by
  refine (((((Takes.map ?_ .any).seq .any).seq (.string ?_)).seq (.string ?_)).seq (.string ?_)).seq .any
  · intro fill _ width _ color hcolor bgColor hbgColor borderColor hborderColor opacity _
    exact ⟨hcolor, hbgColor, hborderColor⟩
  all_goals decide

theorem isInert : kind.IsInert where
  collect := fun _ => .pure trivial
  retained := by
    intro s r w ns _ hw h
    obtain ⟨p, hp, hnodes⟩ := exists_of_bind h
    have hpaint := Schema.takes_of_readForExport takes_texts (by decide) hw.props hp
    obtain ⟨hcolor, hopacity⟩ := hpaint.background s
    rcases hbackground : p.paint.background s with ⟨color, opacity⟩
    rw [hbackground] at hcolor hopacity
    simp only [hbackground] at hnodes
    cases hnodes
    have hround : ((((RetainedNode.ofWidget "obj" w).putPixel "width" (diameter w)).putPixel "height"
        (diameter w)).putText "radius" "LV_RADIUS_CIRCLE").IsInert :=
      (((RetainedNode.isInert_ofWidget (by decide) hw.id).putPixel (by decide) _).putPixel (by decide) _).putText
        (by decide) (by decide)
    exact List.forall_mem_singleton.mpr ((((hround.putTextIf (by decide) hcolor).putText (by decide)
      (keepsLine_of_oneLine hopacity)).putCount (by decide) _).putText (by decide)
      (s.keepsLine_drawnGuiColor hpaint.outlineColor))

end Circle

namespace Line

theorem takes_color : schema.record.Takes .value (textsAre IsKeptText) fun p => IsKeptText "color" p.color := by
  refine ((Takes.map ?_ .any).seq (.string ?_)).seq .any
  · intro width _ color hcolor orientation _
    exact hcolor
  · decide

theorem oneLine_farEnd (p : Props) (r : Rect) : OneLine (farEnd p r) := by
  unfold farEnd
  split
  · exact (oneLine_pixelText _).append (by decide)
  · exact (by decide : OneLine "0, ").append (oneLine_pixelText _)

theorem isInert : kind.IsInert where
  collect := fun _ => .pure trivial
  retained := by
    intro s r w ns _ hw h
    obtain ⟨p, hp, hnodes⟩ := exists_of_bind h
    have hcolor := Schema.takes_of_readForExport takes_color (by decide) hw.props hp
    cases hnodes
    have hnode : ((((RetainedNode.mk "line" []).putText "id" w.id).putPixel "x" w.rect.x).putPixel "y"
        w.rect.y).IsInert :=
      (((RetainedNode.isInert_mk (by decide)).putText (by decide) (keepsLine_of_oneLine hw.id)).putPixel
        (by decide) _).putPixel (by decide) _
    have hends : ∀ point ∈ ["0, 0", farEnd p w.rect], KeepsLine point := List.forall_mem_cons.mpr
      ⟨by decide, List.forall_mem_singleton.mpr (keepsLine_of_oneLine (oneLine_farEnd p w.rect))⟩
    exact List.forall_mem_singleton.mpr (((hnode.put (by decide) (isTame_ofStrings hends)).putCount (by decide)
      _).putText (by decide) (s.keepsLine_drawnGuiColor (hcolor.trimmed (by decide))))

end Line

namespace Chart

theorem takes_color : schema.record.Takes .value (textsAre IsKeptText) fun p => IsKeptText "color" p.color := by
  refine ((((Takes.map ?_ .any).seq .any).seq (.string ?_)).seq .any).seq .any
  · intro style _ duration _ color hcolor thickness _ border _
    exact hcolor
  · decide

theorem hasFamilies_addTitleFont (w : Widget) :
    Yields Resources.HasFamilies (fun _ => True) (addTitleFont w) := by
  unfold addTitleFont
  split
  · exact .map (.register (Q := fun _ => True) fun _ hr => ⟨trivial, hr.addFont (.inl rfl)⟩) fun _ _ => trivial
  · exact .pure trivial

theorem isTame_series {color : String} (h : KeepsLine color) (p : Props) : IsTame (series color p) := by
  let fields : Bag := [("color", .string color), ("width", count p.lineThickness)]
  have hnames : ∀ fs ∈ [fields], ∀ f ∈ fs, Yaml.IsName f.1 ∧ f.1 ≠ "id" := by
    simp only [fields, List.forall_mem_singleton, List.forall_mem_cons]
    decide
  have hvalues : ∀ fs ∈ [fields], ∀ f ∈ fs, IsTame f.2 := by
    simp only [fields, List.forall_mem_singleton, List.forall_mem_cons]
    exact ⟨isTame_string h, isTame_ofInt _⟩
  exact .items hnames hvalues

theorem isInert : kind.IsInert where
  collect := by
    intro s w hw
    refine .bind (.ofExcept (Q := fun _ => True) fun _ _ => trivial) fun p _ =>
      .bind (.ofExcept (Q := fun _ => True) fun _ _ => trivial) fun _ _ =>
      .bind (.ofExcept (Q := fun _ => True) fun _ _ => trivial) fun read _ =>
      .bind (hasFamilies_addTitleFont w) fun _ _ => ?_
    split
    · exact .bind (.register (Q := fun _ => True) fun _ hr => ⟨trivial, hr⟩) fun _ _ => .pure trivial
    · exact .pure trivial
  retained := by
    intro s r w ns _ hw h
    obtain ⟨p, hp, h⟩ := exists_of_bind h
    obtain ⟨style, -, h⟩ := exists_of_bind h
    obtain ⟨read, -, hnodes⟩ := exists_of_bind h
    have hcolor := Schema.takes_of_readForExport takes_color (by decide) hw.props hp
    have hdrawn := s.keepsLine_drawnGuiColor (hcolor.trimmed (by decide))
    have hstyle : KeepsLine style.name := by cases style <;> decide
    cases hnodes
    have hnode : ((RetainedNode.ofWidget "chart" w).putText "type" style.name).IsInert :=
      (RetainedNode.isInert_ofWidget (by decide) hw.id).putText (by decide) hstyle
    exact List.forall_mem_singleton.mpr (((hnode.putCount (by decide) _).putText (by decide) hdrawn).put (by decide)
      (isTame_series hdrawn p))

end Chart

namespace Label

/-- The texts that a node shows, the family of a font among them. -/
def Props.KeepsTexts (p : Props) : Prop :=
  IsKeptText "text" p.text ∧ IsKeptText "font_family" p.fontFamily ∧ IsKeptText "color" p.color ∧
    IsKeptText "bg_color" p.bgColor ∧ IsKeptText "border_color" p.borderColor

theorem takes_texts : schema.record.Takes .value (textsAre IsKeptText) Props.KeepsTexts := by
  refine (((((((((((Takes.map ?_ (.string ?_)).seq .any).seq (.string ?_)).seq (.string ?_)).seq .any).seq .any).seq
    .any).seq (.string ?_)).seq .any).seq .any).seq (.string ?_)).seq .any
  · intro text htext size _ family hfamily color hcolor weight _ italic _ align _ bgColor hbgColor opacity _ width _
      borderColor hborderColor radius _
    exact ⟨htext, hfamily, hcolor, hbgColor, hborderColor⟩
  all_goals decide

theorem keepsTexts_of_read {p : Props} (hw : w.KeepsLines) (hp : schema.readForExport w = .ok p) : p.KeepsTexts :=
  Schema.takes_of_readForExport takes_texts (by decide) hw.props hp

/-- The code of a state is quoted behind its tag. -/
theorem keepsLine_shownText {p : Props} (h : KeepsLine p.text) (w : Widget) : KeepsLine (shownText p w) := by
  unfold shownText
  split
  · next read hread =>
    rw [RetainedNode.quoted_eq_literal (isPrintable_stateLambda (isName_entityRead? hread) 1)]
    exact keepsLine_of_oneLine ((by decide : OneLine "!lambda ").append (.literal _))
  · exact h

theorem isInert : kind.IsInert where
  collect := fun hw => by
    refine .bind (.ofExcept fun _ => keepsTexts_of_read hw) fun _ hp => ?_
    exact .bind (yields_family hp.2.1) fun _ _ => .pure trivial
  retained := by
    intro s r w ns _ hw h
    obtain ⟨p, hp, hnodes⟩ := exists_of_bind h
    obtain ⟨htext, -, hcolor, hbgColor, hborderColor⟩ := keepsTexts_of_read hw hp
    cases hnodes
    have hnode : ((RetainedNode.ofWidget "label" w).putText "text" (shownText p w)).IsInert :=
      (RetainedNode.isInert_ofWidget (by decide) hw.id).putText (by decide) (keepsLine_shownText htext.plain w)
    refine List.forall_mem_singleton.mpr (((((((((hnode.putText (by decide) ?_).putText (by decide) ?_).putText
      (by decide) ?_).putTextIf (by decide) ?_).putText (by decide) ?_).putCount (by decide) _).putText (by decide)
      ?_).putText (by decide) ?_).putCount (by decide) _)
    · exact keepsLine_of_oneLine (ProceduralDocument.oneLine_fontId _)
    · exact s.keepsLine_drawnGuiColor (hcolor.trimmed (by decide))
    · exact keepsLine_of_oneLine (oneLine_guiTextAlign _)
    · exact s.keepsLine_guiColor? (hbgColor.trimmed (by decide))
    · exact keepsLine_of_oneLine (oneLine_opacityText _)
    · exact s.keepsLine_drawnGuiColor (hborderColor.trimmed (by decide))
    · split <;> decide

end Label

namespace Image

theorem takes_texts : schema.record.Takes .value (textsAre IsKeptText) fun p =>
    IsKeptText "src" p.source ∧ IsKeptText "color" p.color := by
  refine (((((Takes.map ?_ (.string ?_)).seq .any).seq (.string ?_)).seq .any).seq .any).seq .any
  · intro source hsource rotation _ color hcolor pivotX _ pivotY _ scale _
    exact ⟨hsource, hcolor⟩
  all_goals decide

theorem keepsLine_sourceOf {p : Props} (h : IsKeptText "src" p.source) {source : String}
    (hsource : sourceOf p w = .ok source) : KeepsLine source := by
  unfold sourceOf at hsource
  split at hsource
  · next found hfound =>
    obtain ⟨rfl, -⟩ := nonBlank?_eq_some hfound
    cases hsource
    exact h.trimmed (by decide)
  · cases hsource

theorem isInert : kind.IsInert where
  collect := fun _ => .pure trivial
  retained := by
    intro s r w ns _ hw h
    obtain ⟨p, hp, h⟩ := exists_of_bind h
    obtain ⟨source, hfound, hnodes⟩ := exists_of_bind h
    obtain ⟨hsource, hcolor⟩ := Schema.takes_of_readForExport takes_texts (by decide) hw.props hp
    cases hnodes
    have hnode : ((RetainedNode.ofWidget "image" w).putText "src" source).IsInert :=
      (RetainedNode.isInert_ofWidget (by decide) hw.id).putText (by decide) (keepsLine_sourceOf hsource hfound)
    have hturned := ((hnode.putPixel (by decide : Yaml.IsName "angle") p.rotation).putPixel
      (by decide : Yaml.IsName "pivot_x") p.pivotX).putPixel (by decide : Yaml.IsName "pivot_y") p.pivotY
    exact List.forall_mem_singleton.mpr (((hturned.putCount (by decide) _).putText (by decide)
      (s.keepsLine_drawnGuiColor (hcolor.trimmed (by decide)))).putText (by decide) (by decide))

end Image

theorem isInert_of_builtin {k : WidgetKind} (hk : k ∈ builtin) : k.IsInert := by
  simp only [builtin, List.mem_cons, List.not_mem_nil, or_false] at hk
  rcases hk with rfl | rfl | rfl | rfl | rfl | rfl | rfl | rfl | rfl
  · exact Clock.isInert
  · exact TextBlock.isInert
  · exact Rectangle.isInert
  · exact Circle.isInert
  · exact Line.isInert
  · exact Chart.isInert
  · exact Label.isInert
  · exact Image.isInert
  · exact ⟨fun _ => .pure trivial, fun _ _ h => Except.ok.inj h ▸ fun _ hn => absurd hn List.not_mem_nil⟩

end Kind

end Dashboard
