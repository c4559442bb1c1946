import Dashboard.Proofs.Kind.Redrawn
import Dashboard.Proofs.Resources.Names
/-!
# Paint in three encodings

What a color property paints with is the same triple wherever it is written: as the constant of the drawing
code, which a table binds, as the literal of an instruction, and as the hexadecimal number of a node. This
holds of the colors that are usual in properties, in every role and under both themes.
-/

namespace Dashboard

open Text Number Emission Statement

/-! ## Usual colors -/

namespace Color

/-- Nothing, one of the two words, a name in any case, or a number sign and six hexadecimal digits. -/
inductive IsUsual (value : String) : Prop where
  | blank (h : trim value = "")
  | themeAuto (h : sameLetters (trim value) themeAuto = true)
  | transparent (h : sameLetters (trim value) Color.transparent = true)
  | name (h : lower (trim value) ∈ names)
  | hex {digits : List Char} (h : (trim value).toList = '#' :: digits) (hlength : digits.length = 6)
    (hdigits : IsHex digits)

variable {value : String}

theorem IsUsual.trim (h : IsUsual value) : IsUsual (Text.trim value) := by
  cases h with
  | blank h => exact .blank (by rw [trim_trim, h])
  | themeAuto h => exact .themeAuto (by rw [trim_trim, h])
  | transparent h => exact .transparent (by rw [trim_trim, h])
  | name h => exact .name (by rwa [trim_trim])
  | hex h hlength hdigits => exact .hex (by rw [trim_trim, h]) hlength hdigits

/-- A color with or without another one over it. -/
theorem IsUsual.effective {override base : String} (hover : IsUsual override) (hbase : IsUsual base) :
    IsUsual (effective (some override) base) := by
  unfold Color.effective
  cases h : nonBlank? override with
  | none => rwa [Option.bind_some, h]
  | some c =>
    rw [Option.bind_some, h]
    obtain ⟨rfl, -⟩ := nonBlank?_eq_some h
    change IsUsual (if _ then base else Text.trim override)
    split
    · exact hbase
    · exact hover.trim

theorem exists_isPlain_name (h : lower (trim value) ∈ names) : ∃ rgb, IsPlain (trim value) rgb := by
  have hnames : ∀ name ∈ names, (ofName? name).isSome = true ∧ name.toList.head? ≠ some '#' := by decide
  obtain ⟨hsome, hhead⟩ := hnames _ h
  obtain ⟨rgb, hrgb⟩ := Option.isSome_iff_exists.mp hsome
  refine ⟨rgb, ?_, fun hplus => ?_⟩
  · rw [rgb?_trim, rgb?]
    split
    · next hex htrim =>
      refine absurd ?_ hhead
      rw [lower, trim, htrim, String.toList_ofList, String.toList_ofList]
      rfl
    · exact hrgb
  · rw [← String.ofList_toList (s := trim value)] at hrgb
    exact absurd (isAlphanum_of_name hrgb '+' hplus) (by decide)

theorem exists_channel? {a b : Char} (ha : (Json.hexValue? a).isSome) (hb : (Json.hexValue? b).isSome) :
    ∃ n, channel? a b = some n := by
  have hplus : a ≠ '+' := by
    rintro rfl
    exact absurd ha (by decide)
  obtain ⟨m, hm⟩ := Option.isSome_iff_exists.mp ha
  obtain ⟨k, hk⟩ := Option.isSome_iff_exists.mp hb
  exact ⟨UInt8.ofNat (16 * m + k), by rw [channel?, if_neg hplus, hm, hk]⟩

theorem exists_ofHex? {digits : List Char} (hlength : digits.length = 6) (h : IsHex digits) :
    ∃ rgb, ofHex? digits = some rgb := by
  obtain ⟨a, b, c, d, e, f, rfl⟩ : ∃ a b c d e f, digits = [a, b, c, d, e, f] := by
    match digits, hlength with
    | [a, b, c, d, e, f], _ => exact ⟨a, b, c, d, e, f, rfl⟩
  simp only [IsHex, List.forall_mem_cons] at h
  obtain ⟨ha, hb, hc, hd, he, hf, -⟩ := h
  obtain ⟨red, hred⟩ := exists_channel? ha hb
  obtain ⟨green, hgreen⟩ := exists_channel? hc hd
  obtain ⟨blue, hblue⟩ := exists_channel? he hf
  exact ⟨⟨red, green, blue⟩, by simp [ofHex?, hred, hgreen, hblue]⟩

theorem exists_isPlain_hex {digits : List Char} (h : (trim value).toList = '#' :: digits)
    (hlength : digits.length = 6) (hdigits : IsHex digits) : ∃ rgb, IsPlain (trim value) rgb := by
  obtain ⟨rgb, hrgb⟩ := exists_ofHex? hlength hdigits
  have htrim : trimChars value.toList = '#' :: digits := by rw [← h, trim, String.toList_ofList]
  refine ⟨rgb, ?_, fun hplus => ?_⟩
  · rw [rgb?_trim, rgb?, htrim]
    exact hrgb
  · rw [h] at hplus
    rcases List.mem_cons.mp hplus with hplus | hplus
    · exact absurd hplus (by decide)
    · exact absurd (hdigits '+' hplus) (by decide)

theorem exists_isPlain_theme (dark : Bool) : ∃ rgb, IsPlain (themeDefault dark) rgb := by
  cases dark with
  | false => exact ⟨⟨0, 0, 0⟩, by decide, by decide⟩
  | true => exact ⟨⟨255, 255, 255⟩, by decide, by decide⟩

/-- The triple that a property paints with in a role, if it paints at all. -/
def painted? (value : String) (role : ColorRole) (dark : Bool) : Option Rgb :=
  (resolve? value role dark).bind rgb?

/-- A property that stands for nothing, as an interior may, or for a color with the painted triple. -/
inductive Stands (value : String) (role : ColorRole) (dark : Bool) : Prop where
  | nothing (hresolve : resolve? value role dark = none) (hpainted : painted? value role dark = none)
    (hrole : role = .fill)
  | plain {c : String} {rgb : Rgb} (hresolve : resolve? value role dark = some c)
    (hpainted : painted? value role dark = some rgb) (h : IsPlain c rgb)

variable {role : ColorRole} {dark : Bool}

theorem Stands.of_none (h : resolve? value role dark = none) (hrole : role = .fill) : Stands value role dark :=
  .nothing h (by rw [painted?, h, Option.bind_none]) hrole

theorem Stands.of_some {c : String} (hresolve : resolve? value role dark = some c)
    (h : ∃ rgb, IsPlain c rgb) : Stands value role dark := by
  obtain ⟨rgb, hplain⟩ := h
  exact .plain hresolve (by rw [painted?, hresolve, Option.bind_some, hplain.triple]) hplain

theorem Stands.of_isPlain (h : ∃ rgb, IsPlain (trim value) rgb) : Stands value role dark := by
  obtain ⟨rgb, hplain⟩ := h
  exact .of_some (resolve?_of_rgb? ((rgb?_trim value).symm.trans hplain.triple) role dark) ⟨rgb, hplain⟩

/-- The theme stands in for nothing and for its own word. -/
theorem Stands.of_theme (htransparent : sameLetters (trim value) Color.transparent = false)
    (h : ((trim value).isEmpty || sameLetters (trim value) themeAuto) = true) : Stands value role dark := by
  refine .of_some ?_ (exists_isPlain_theme dark)
  rw [resolve?, htransparent, h, if_neg Bool.false_ne_true, if_pos rfl]

theorem IsUsual.stands (h : IsUsual value) (role : ColorRole) (dark : Bool) : Stands value role dark := by
  cases h with
  | blank h => exact .of_theme (by rw [h]; decide) (by rw [h]; decide)
  | themeAuto h =>
    have hlower : lower (Text.trim value) = lower Color.themeAuto := eq_of_beq h
    refine .of_theme ?_ (by rw [h, Bool.or_true])
    rw [sameLetters, hlower]
    decide
  | transparent h =>
    by_cases hfill : role = .fill
    · exact .of_none (by rw [resolve?, h, if_pos rfl, if_pos hfill]) hfill
    · exact .of_some (by rw [resolve?, h, if_pos rfl, if_neg hfill]) (exists_isPlain_theme dark)
  | name h => exact .of_isPlain (exists_isPlain_name h)
  | hex h hlength hdigits => exact .of_isPlain (exists_isPlain_hex h hlength hdigits)

end Color

/-! ## Numbers of nodes -/

/-- The triple of a number of six hexadecimal digits. -/
def Rgb.ofNumber? (number : String) : Option Rgb :=
  match number.toList with
  | '0' :: 'x' :: digits =>
    if digits.all fun c => (Json.hexValue? c).isSome then Color.ofHex? digits else none
  | _ => none

namespace Setting

theorem channel?_upperHex (n : UInt8) : ∃ a b, upperHex n = [a, b] ∧ Color.channel? a b = some n ∧
    (Json.hexValue? a).isSome ∧ (Json.hexValue? b).isSome := by
  have hall : ∀ n < 256, ∃ a b, upperHex (UInt8.ofNat n) = [a, b] ∧
      Color.channel? a b = some (UInt8.ofNat n) ∧ (Json.hexValue? a).isSome ∧ (Json.hexValue? b).isSome := by
    intro n hn
    refine ⟨_, _, rfl, ?_⟩
    revert n
    decide +kernel
  simpa using hall n.toNat n.toNat_lt

theorem ofNumber?_guiText {color : String} {rgb : Rgb} (h : Color.rgb? color = some rgb) :
    Rgb.ofNumber? (guiText color) = some rgb := by
  obtain ⟨a, b, hred, hreds, ha, hb⟩ := channel?_upperHex rgb.red
  obtain ⟨c, d, hgreen, hgreens, hc, hd⟩ := channel?_upperHex rgb.green
  obtain ⟨e, f, hblue, hblues, he, hf⟩ := channel?_upperHex rgb.blue
  have htext : (guiText color).toList = ['0', 'x', a, b, c, d, e, f] := by
    simp [guiText, h, hred, hgreen, hblue]
  simp [Rgb.ofNumber?, Color.ofHex?, *]

/-- The literal of a drawn color and its number have the painted triple. -/
theorem exists_drawn {value : String} (h : Color.IsUsual value) (s : Setting) :
    ∃ rgb, Color.painted? value .outline s.dark = some rgb ∧ Color.rgb? (s.drawnColor value) = some rgb ∧
      Rgb.ofNumber? (s.drawnGuiColor value) = some rgb := by
  obtain ⟨-, -, hrole⟩ | ⟨hresolve, hpainted, hplain⟩ := h.stands .outline s.dark
  · cases hrole
  refine ⟨_, hpainted, ?_, ?_⟩
  · rw [drawnColor, color?, hresolve]
    exact hplain.triple
  · rw [drawnGuiColor, guiColor?, color?, hresolve]
    exact ofNumber?_guiText hplain.triple

end Setting

/-! ## Constants -/

/-- A name that is bound to a triple, or no name and no triple. -/
inductive Colors.Binds (t : Colors) : Option String → Option Rgb → Prop where
  | nothing : Binds t none none
  | color {name : String} {rgb : Rgb} (hname : IsName name) (h : Table.find? t name = some rgb) :
    Binds t (some name) (some rgb)

theorem Colors.Binds.isName {t : Colors} {name : Option String} {rgb : Option Rgb} (h : t.Binds name rgb) :
    ∀ color ∈ name, IsName color := by
  cases h with
  | nothing => exact fun color hcolor => absurd hcolor (Option.not_mem_none color)
  | color hname _ => exact fun color hcolor => Option.mem_some.mp hcolor ▸ hname

namespace Resources

variable {value : String} {s : Setting} {r : Resources}

/-- A constant keeps its triple when more colors come. -/
theorem binds_addColor {name : Option String} {rgb : Option Rgb} (h : r.colors.Binds name rgb) (color : String) :
    (r.addColor color).2.colors.Binds name rgb := by
  cases h with
  | nothing => exact .nothing
  | @color name rgb hname h =>
    obtain ⟨known, triple, hknown, heq⟩ := Colors.exists_constant_eq color r.colors
    refine .color hname ?_
    change Table.find? (Colors.constant color r.colors).2 name = some rgb
    rw [heq, Colors.constant_of_rgb? hknown, Table.find?_putNew, h, Option.some_or]

theorem binds_constantName {color : String} {rgb : Rgb} (hr : r.colors.IsRegistered) (h : Color.IsPlain color rgb) :
    (r.addColor color).2.colors.Binds (some (r.addColor color).1) (some rgb) := by
  rw [fst_addColor_of_isPlain h]
  exact .color (Kind.isName_constantName color) (find?_addColor hr h)

theorem colorConstant?_binds (h : Color.IsUsual value) (s : Setting) (role : ColorRole)
    (hr : r.colors.IsRegistered) : (colorConstant? s value role r).2.colors.IsRegistered ∧
      (colorConstant? s value role r).2.colors.Binds (colorConstant? s value role r).1
        (Color.painted? value role s.dark) := by
  unfold colorConstant? Setting.color?
  cases h.stands role s.dark with
  | nothing hresolve hpainted =>
    rw [hresolve, hpainted]
    exact ⟨hr, .nothing⟩
  | plain hresolve hpainted hplain =>
    rw [hresolve, hpainted]
    exact ⟨isRegistered_addColor hr _, binds_constantName hr hplain⟩

/-- The constant of an outline, after which everything else is bound as before. -/
theorem colorConstant_binds (h : Color.IsUsual value) (s : Setting) (hr : r.colors.IsRegistered) :
    (colorConstant s value .outline r).2.colors.Binds (some (colorConstant s value .outline r).1)
        (Color.painted? value .outline s.dark) ∧
      ∀ {name rgb}, r.colors.Binds name rgb → (colorConstant s value .outline r).2.colors.Binds name rgb := by
  cases h.stands .outline s.dark with
  | nothing _ _ hrole => cases hrole
  | @plain color rgb hresolve hpainted hplain =>
    have hconstant : colorConstant s value .outline r = r.addColor color := by
      rw [colorConstant, colorConstant?, Setting.color?, hresolve]
    rw [hconstant, hpainted]
    exact ⟨binds_constantName hr hplain, fun hbound => binds_addColor hbound color⟩

end Resources

namespace Kind.Shape.Paint

variable {p : Paint}

/-- The triple of the interior of a shape, if it has one. -/
def interior? (p : Paint) (dark : Bool) : Option Rgb :=
  if p.fill then Color.painted? p.fillColor .fill dark else none

/-- The constants of a shape are bound to what its interior and its outline are painted with. -/
theorem register_binds (hfill : Color.IsUsual p.fillColor) (houtline : Color.IsUsual p.outlineColor)
    (s : Setting) {r : Resources} (hr : r.colors.IsRegistered) : ∃ fill outline after,
      runWith (p.register s) r = (.ok (fill, outline), after) ∧
        after.colors.Binds fill (p.interior? s.dark) ∧
        after.colors.Binds (some outline) (Color.painted? p.outlineColor .outline s.dark) := by
  unfold interior?
  cases hfilled : p.fill with
  | false =>
    obtain ⟨hbound, -⟩ := Resources.colorConstant_binds houtline s hr
    refine ⟨none, _, _, ?_, .nothing, hbound⟩
    simp only [register, hfilled, Bool.false_eq_true, if_false, runWith_bind, runWith_pure, runWith_register]
  | true =>
    obtain ⟨hregistered, hinside⟩ := Resources.colorConstant?_binds hfill s .fill hr
    obtain ⟨hbound, hkept⟩ := Resources.colorConstant_binds houtline s hregistered
    refine ⟨_, _, _, ?_, hkept hinside, hbound⟩
    simp only [register, hfilled, if_true, runWith_bind, runWith_pure, runWith_register]

theorem mapM_literalFill (hfill : Color.IsUsual p.fillColor) (s : Setting) :
    (p.literalFill s).mapM Color.rgb? = some (p.interior? s.dark) := by
  unfold literalFill interior? Setting.color?
  cases p.fill with
  | false => rfl
  | true =>
    obtain ⟨hnone, hunpainted, -⟩ | ⟨hsome, hpainted, hplain⟩ := hfill.stands .fill s.dark
    · rw [if_pos rfl, if_pos rfl, hnone, hunpainted]
      rfl
    · rw [if_pos rfl, if_pos rfl, hsome, hpainted]
      simp [hplain.triple]

theorem mapM_background (hfill : Color.IsUsual p.fillColor) (s : Setting) :
    (p.background s).1.mapM Rgb.ofNumber? = some (p.interior? s.dark) := by
  unfold background interior? Setting.guiColor? Setting.color?
  obtain ⟨hnone, hunpainted, -⟩ | ⟨hsome, hpainted, hplain⟩ := hfill.stands .fill s.dark
  · rw [hnone, hunpainted, ite_self]
    rfl
  · rw [hsome, hpainted]
    cases p.fill with
    | false => rfl
    | true => simp [Setting.ofNumber?_guiText hplain.triple]

end Kind.Shape.Paint

end Dashboard
