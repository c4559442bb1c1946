import Dashboard.Proofs.Compile.Alongside
/-!
# What a theme changes

A theme changes colors, and a color in one way only: where a property leaves it to the theme, it is black on a
light ground and white on a dark one. Whether there is a color at all does not depend on the theme, nor does
anything else that a kind gives. Two runs of each kind, one for each theme, are compared.
-/

namespace Dashboard

open Emission

/-! ## Colors -/

namespace Color

/-- A color in the two themes: the same, or the two colors of the themes. -/
def Follows (light dark a b : String) : Prop := a = b ∨ a = light ∧ b = dark

/-- Colors in the words of remote renderers. -/
abbrev FollowsTheme : String → String → Prop := Follows "black" "white"

/-- Colors in the words of the retained GUI. -/
abbrev FollowsGuiTheme : String → String → Prop := Follows "0x000000" "0xFFFFFF"

theorem Follows.refl (light dark a : String) : Follows light dark a a := .inl rfl

theorem follows_themeDefault : FollowsTheme (themeDefault false) (themeDefault true) := .inr ⟨rfl, rfl⟩

theorem resolve?_eq (value : String) (role : ColorRole) (dark : Bool) : resolve? value role dark =
    if Text.sameLetters (Text.trim value) transparent then
      (if role = .fill then none else some (themeDefault dark))
    else if (Text.trim value).isEmpty || Text.sameLetters (Text.trim value) themeAuto then some (themeDefault dark)
    else some (Text.trim value) := rfl

/-- A property stands for no color, for the color of the theme or for a color of its own, in both themes. -/
theorem resolve?_cases (value : String) (role : ColorRole) :
    (role = .fill ∧ ∀ dark, resolve? value role dark = none) ∨
      (∀ dark, resolve? value role dark = some (themeDefault dark)) ∨
      ∃ c, ∀ dark, resolve? value role dark = some c := by
  simp only [resolve?_eq]
  by_cases htransparent : Text.sameLetters (Text.trim value) transparent = true
  · simp only [if_pos htransparent]
    by_cases hfill : role = .fill
    · exact .inl ⟨hfill, fun dark => if_pos hfill⟩
    · exact .inr (.inl fun dark => if_neg hfill)
  · simp only [if_neg htransparent]
    by_cases hauto : ((Text.trim value).isEmpty || Text.sameLetters (Text.trim value) themeAuto) = true
    · exact .inr (.inl fun dark => if_pos hauto)
    · exact .inr (.inr ⟨Text.trim value, fun dark => if_neg hauto⟩)

/-- A color is there in both themes or in none. -/
theorem rel_resolve? (value : String) (role : ColorRole) :
    Option.Rel FollowsTheme (resolve? value role false) (resolve? value role true) := by
  obtain h | h | h := resolve?_cases value role
  · rw [h.2, h.2]
    exact .none
  · rw [h, h]
    exact .some follows_themeDefault
  · obtain ⟨c, hc⟩ := h
    rw [hc, hc]
    exact .some (.inl rfl)

theorem isSome_resolve? {role : ColorRole} (hrole : role ≠ .fill) (value : String) (dark : Bool) :
    (resolve? value role dark).isSome = true := by
  rcases resolve?_cases value role with ⟨hfill, -⟩ | h | ⟨c, h⟩
  · exact absurd hfill hrole
  · rw [h, Option.isSome_some]
  · rw [h, Option.isSome_some]

section rel

variable {R Q : String → String → Prop} {a b : Option String}

theorem rel_getD (h : Option.Rel R a b) (ha : a.isSome = true) (x y : String) : R (a.getD x) (b.getD y) := by
  cases h with
  | some hab => exact hab
  | none => exact nomatch ha

theorem rel_map (h : Option.Rel R a b) {f : String → String} (hf : ∀ a b, R a b → Q (f a) (f b)) :
    Option.Rel Q (a.map f) (b.map f) := by
  cases h with
  | some hab => exact .some (hf _ _ hab)
  | none => exact .none

end rel

end Color

open Color

namespace Setting

variable (s : Setting)

def withDark (dark : Bool) : Setting := { s with dark }

theorem followsTheme_drawnColor (value : String) :
    FollowsTheme ((s.withDark false).drawnColor value) ((s.withDark true).drawnColor value) := by
  unfold drawnColor
  exact rel_getD (rel_resolve? value .outline) (isSome_resolve? ColorRole.noConfusion value false) _ _

theorem followsGuiTheme_guiText {a b : String} (h : FollowsTheme a b) : FollowsGuiTheme (guiText a) (guiText b) := by
  rcases h with rfl | ⟨rfl, rfl⟩
  · exact .inl rfl
  · exact .inr ⟨by decide +kernel, by decide +kernel⟩

theorem rel_guiColor? (value : String) (role : ColorRole) : Option.Rel FollowsGuiTheme
    ((s.withDark false).guiColor? value role) ((s.withDark true).guiColor? value role) := by
  unfold guiColor?
  exact rel_map (rel_resolve? value role) fun _ _ => followsGuiTheme_guiText

theorem followsGuiTheme_drawnGuiColor (value : String) :
    FollowsGuiTheme ((s.withDark false).drawnGuiColor value) ((s.withDark true).drawnGuiColor value) := by
  have hsome : ((s.withDark false).guiColor? value .outline).isSome = true := by
    rw [guiColor?, Option.isSome_map]
    exact isSome_resolve? ColorRole.noConfusion value false
  unfold drawnGuiColor
  exact rel_getD (s.rel_guiColor? value .outline) hsome _ _

end Setting

/-! ## Tables -/

namespace Table

variable {α β : Type} {R : String → α → β → Prop}

/-- Two tables with the same keys whose values are related. -/
def Rel (R : String → α → β → Prop) (t : Table α) (t' : Table β) : Prop :=
  List.Forall₂ (fun e e' => e.1 = e'.1 ∧ R e.1 e.2 e'.2) t t'

theorem Rel.put {t : Table α} {t' : Table β} (h : Rel R t t') {key : String} {v : α} {v' : β}
    (hv : R key v v') : Rel R (Table.put key v t) (Table.put key v' t') := by
  induction h with
  | nil => exact .cons ⟨rfl, hv⟩ .nil
  | @cons e e' t t' he ht ih =>
    obtain ⟨k, x⟩ := e
    obtain ⟨k', x'⟩ := e'
    obtain ⟨rfl, hx⟩ := he
    simp only [Table.put]
    split
    · exact .cons ⟨rfl, hv⟩ (.cons ⟨rfl, hx⟩ ht)
    · split
      · exact .cons ⟨rfl, hv⟩ ht
      · exact .cons ⟨rfl, hx⟩ ih

end Table

/-! ## Nodes -/

namespace RetainedNode

def colorKeys : List String := ["text_color", "bg_color", "border_color", "line_color", "image_recolor"]

/-- The values of a property in the two themes. A color and the color of a series follow the theme; any other
value is the same. -/
inductive ValueFollows : String → Json → Json → Prop
  | same (key : String) (v : Json) : ValueFollows key v v
  | color {key a b : String} (hkey : key ∈ colorKeys) (h : FollowsGuiTheme a b) :
    ValueFollows key (.string a) (.string b)
  | series {a b : String} (h : FollowsGuiTheme a b) (p : Kind.Chart.Props) :
    ValueFollows "series" (Kind.Chart.series a p) (Kind.Chart.series b p)

/-- A node in the two themes: one tag, the same keys, and values that differ in colors only. -/
structure FollowsTheme (m n : RetainedNode) : Prop where
  tag : m.tag = n.tag
  props : Table.Rel ValueFollows m.props n.props

namespace FollowsTheme

variable {m n : RetainedNode}

theorem refl (n : RetainedNode) : n.FollowsTheme n :=
  ⟨rfl, List.forall₂_same.mpr fun e _ => ⟨rfl, .same e.1 e.2⟩⟩

theorem put (h : m.FollowsTheme n) {key : String} {v w : Json} (hv : ValueFollows key v w) :
    (m.put key v).FollowsTheme (n.put key w) := ⟨h.tag, h.props.put hv⟩

theorem putSame (h : m.FollowsTheme n) (key : String) (v : Json) : (m.put key v).FollowsTheme (n.put key v) :=
  h.put (.same key v)

theorem putColor (h : m.FollowsTheme n) {key a b : String} (hkey : key ∈ colorKeys)
    (hcolor : FollowsGuiTheme a b) : (m.putText key a).FollowsTheme (n.putText key b) :=
  h.put (.color hkey hcolor)

theorem putColorIf (h : m.FollowsTheme n) {key : String} (hkey : key ∈ colorKeys) {a b : Option String}
    (hcolor : Option.Rel FollowsGuiTheme a b) : (m.putTextIf key a).FollowsTheme (n.putTextIf key b) := by
  cases hcolor with
  | some hab => exact h.putColor hkey hab
  | none => exact h

end FollowsTheme

end RetainedNode

/-! ## Instructions -/

/-- An instruction in the two themes: its colors follow the theme, and the rest is the same. -/
inductive Instruction.FollowsTheme : Instruction → Instruction → Prop
  | text (d : TextDraw) {color : String} (h : Color.FollowsTheme d.color color) :
    FollowsTheme (.text d) (.text { d with color })
  | circle (d : CircleDraw) {fill : Option String} {outline : String}
    (hfill : Option.Rel Color.FollowsTheme d.fill fill) (h : Color.FollowsTheme d.outline outline) :
    FollowsTheme (.circle d) (.circle { d with fill, outline })
  | rectangle (d : RectangleDraw) {fill : Option String} {outline : String}
    (hfill : Option.Rel Color.FollowsTheme d.fill fill) (h : Color.FollowsTheme d.outline outline) :
    FollowsTheme (.rectangle d) (.rectangle { d with fill, outline })
  | ellipse (d : EllipseDraw) {fill : Option String} {outline : String}
    (hfill : Option.Rel Color.FollowsTheme d.fill fill) (h : Color.FollowsTheme d.outline outline) :
    FollowsTheme (.ellipse d) (.ellipse { d with fill, outline })
  | line (d : LineDraw) {fill : String} (h : Color.FollowsTheme d.fill fill) :
    FollowsTheme (.line d) (.line { d with fill })

namespace Instruction

section constructors

variable {a b : String} {c d : Option String} (h : Color.FollowsTheme a b) (hfill : Option.Rel Color.FollowsTheme c d)

include h

theorem followsTheme_text {value anchor font : String} {x y : Pixel} {size : UInt32} {align : Option String}
    {maxWidth spacing : Option Pixel} :
    FollowsTheme (.text ⟨value, x, y, size, a, anchor, font, align, maxWidth, spacing⟩)
      (.text ⟨value, x, y, size, b, anchor, font, align, maxWidth, spacing⟩) := .text _ h

theorem followsTheme_line {edges : Edges} {width : UInt32} :
    FollowsTheme (.line ⟨edges, a, width⟩) (.line ⟨edges, b, width⟩) := .line _ h

include hfill

theorem followsTheme_circle {x y radius : Pixel} {width : UInt32} :
    FollowsTheme (.circle ⟨x, y, radius, c, a, width⟩) (.circle ⟨x, y, radius, d, b, width⟩) := .circle _ hfill h

theorem followsTheme_rectangle {edges : Edges} {width : UInt32} {radius : Option UInt32} {visible : Option Bool} :
    FollowsTheme (.rectangle ⟨edges, c, a, width, radius, visible⟩)
      (.rectangle ⟨edges, d, b, width, radius, visible⟩) := .rectangle _ hfill h

theorem followsTheme_ellipse {edges : Edges} {width : UInt32} {visible : Option Bool} :
    FollowsTheme (.ellipse ⟨edges, c, a, width, visible⟩) (.ellipse ⟨edges, d, b, width, visible⟩) :=
  .ellipse _ hfill h

end constructors

end Instruction

/-! ## Kinds -/

namespace WidgetKind

/-- A kind for which a theme changes the colors of its nodes and of its instructions, and nothing else. -/
structure FollowsTheme (k : WidgetKind) : Prop where
  collect : ∀ (s : Setting) w, k.collect (s.withDark true) w = k.collect (s.withDark false) w
  retained : ∀ (s : Setting) r w, Agree (List.Forall₂ RetainedNode.FollowsTheme)
    (k.retained (s.withDark false) r w) (k.retained (s.withDark true) r w)
  declarative : ∀ (s : Setting) r f w, Agree (List.Forall₂ Instruction.FollowsTheme)
    (k.declarative (s.withDark false) r f w) (k.declarative (s.withDark true) r f w)
  resolve : ∀ (s : Setting) ws, k.resolve (s.withDark true) ws = k.resolve (s.withDark false) ws

end WidgetKind

namespace Kind

open RetainedNode (FollowsTheme)

-- The lemmas above say all that is needed of colors; whoever compares two runs need not compute them.
attribute [local irreducible] Color.resolve? Setting.drawnColor Setting.drawnGuiColor Setting.guiColor?

namespace Shape.Paint

variable (p : Paint) (s : Setting)

/-- Whether the interior is painted, and how densely, does not depend on the theme. -/
theorem exists_background : ∃ a b opacity, p.background (s.withDark false) = (a, opacity) ∧
    p.background (s.withDark true) = (b, opacity) ∧ Option.Rel FollowsGuiTheme a b := by
  have hcolor := s.rel_guiColor? p.fillColor .fill
  unfold background
  generalize (s.withDark false).guiColor? p.fillColor .fill = light at hcolor ⊢
  generalize (s.withDark true).guiColor? p.fillColor .fill = dark at hcolor ⊢
  cases hcolor with
  | none => exact ⟨none, none, _, rfl, rfl, .none⟩
  | some h =>
    cases p.fill with
    | false => exact ⟨none, none, _, rfl, rfl, .none⟩
    | true => exact ⟨_, _, _, rfl, rfl, .some h⟩

theorem rel_literalFill :
    Option.Rel Color.FollowsTheme (p.literalFill (s.withDark false)) (p.literalFill (s.withDark true)) := by
  unfold literalFill
  split
  · exact rel_resolve? p.fillColor .fill
  · exact .none

end Shape.Paint

theorem Ellipse.rel_fillColor? (p : Ellipse.Props) :
    Option.Rel Color.FollowsTheme (fillColor? p false) (fillColor? p true) := by
  unfold fillColor?
  cases p.fill.filter fun f => !Text.isBlankText f with
  | none => exact .none
  | some f => exact rel_resolve? f .fill

theorem Clock.followsTheme_draw (s : Setting) (f : Flavor) (p : Clock.Props) (r : Rect) (pattern : String)
    (x y : Pixel) (anchor : Alignment) (font : FontRequest) : Instruction.FollowsTheme
      (Clock.draw (s.withDark false) f p r pattern x y anchor font)
      (Clock.draw (s.withDark true) f p r pattern x y anchor font) := by
  unfold Clock.draw
  exact Instruction.followsTheme_text (s.followsTheme_drawnColor p.color)

theorem Clock.followsTheme : Clock.kind.FollowsTheme where
  collect := fun _ _ => rfl
  retained := fun s r w => Agree.bind fun p => by
    refine .cons ?_ .nil
    have hcolor := s.followsGuiTheme_drawnGuiColor p.color
    exact (((((FollowsTheme.refl _).putSame _ _).putSame _ _).putColor (by decide) hcolor).putSame _ _).putSame _ _
  declarative := fun s r f w => Agree.bind fun p => by
    cases p.format.secondaryPattern? with
    | none => exact .cons (followsTheme_draw s f p _ _ _ _ _ _) .nil
    | some second =>
      exact .cons (followsTheme_draw s f p _ _ _ _ _ _) (.cons (followsTheme_draw s f p _ _ _ _ _ _) .nil)
  resolve := fun _ _ => rfl

theorem TextBlock.followsTheme : TextBlock.kind.FollowsTheme where
  collect := fun _ _ => rfl
  retained := fun s r w => Agree.bind fun p => by
    refine .cons ?_ .nil
    have hcolor := s.followsGuiTheme_drawnGuiColor p.color
    exact (((((FollowsTheme.refl _).putSame _ _).putSame _ _).putColor (by decide) hcolor).putSame _ _).putSame _ _
  declarative := fun s r f w => Agree.bind fun p =>
    .cons (Instruction.followsTheme_text (s.followsTheme_drawnColor p.color)) .nil
  resolve := fun _ _ => rfl

theorem Rectangle.followsTheme : Rectangle.kind.FollowsTheme where
  collect := fun _ _ => rfl
  retained := fun s r w => Agree.bind fun p => by
    have hcolor := s.followsGuiTheme_drawnGuiColor p.paint.outlineColor
    obtain ⟨a, b, opacity, hlight, hdark, hfill⟩ := p.paint.exists_background s
    rw [hlight, hdark]
    refine .cons ?_ .nil
    exact (((((FollowsTheme.refl _).putColorIf (by decide) hfill).putSame _ _).putSame _ _).putColor (by decide)
      hcolor).putSame _ _
  declarative := fun s r f w => Agree.bind fun p => .cons (Instruction.followsTheme_rectangle
    (s.followsTheme_drawnColor p.paint.outlineColor) (p.paint.rel_literalFill s)) .nil
  resolve := fun _ _ => rfl

theorem Circle.followsTheme : Circle.kind.FollowsTheme where
  collect := fun _ _ => rfl
  retained := fun s r w => Agree.bind fun p => by
    have hcolor := s.followsGuiTheme_drawnGuiColor p.paint.outlineColor
    obtain ⟨a, b, opacity, hlight, hdark, hfill⟩ := p.paint.exists_background s
    rw [hlight, hdark]
    refine .cons ?_ .nil
    exact (((((((FollowsTheme.refl _).putSame _ _).putSame _ _).putSame _ _).putColorIf (by decide) hfill).putSame
      _ _).putSame _ _).putColor (by decide) hcolor
  declarative := fun s r f w => Agree.bind fun p => .cons (Instruction.followsTheme_circle
    (s.followsTheme_drawnColor p.paint.outlineColor) (p.paint.rel_literalFill s)) .nil
  resolve := fun _ _ => rfl

theorem Line.followsTheme : Line.kind.FollowsTheme where
  collect := fun _ _ => rfl
  retained := fun s r w => Agree.bind fun p =>
    .cons ((FollowsTheme.refl _).putColor (by decide) (s.followsGuiTheme_drawnGuiColor p.color)) .nil
  declarative := fun s r f w => Agree.bind fun p =>
    .cons (Instruction.followsTheme_line (s.followsTheme_drawnColor p.color)) .nil
  resolve := fun _ _ => rfl

theorem Chart.followsTheme : Chart.kind.FollowsTheme where
  collect := fun _ _ => rfl
  retained := fun s r w => Agree.bind fun p => by
    have hcolor := s.followsGuiTheme_drawnGuiColor p.color
    have hseries := RetainedNode.ValueFollows.series hcolor p
    cases styleOf p w with
    | error e => exact rfl
    | ok style =>
      cases entityOf w with
      | error e => exact rfl
      | ok read => exact .cons (((FollowsTheme.refl _).putColor (by decide) hcolor).put hseries) .nil
  declarative := fun _ _ _ _ => .nil
  resolve := fun _ _ => rfl

theorem Label.followsTheme : Label.kind.FollowsTheme where
  collect := fun _ _ => rfl
  retained := fun s r w => Agree.bind fun p => by
    refine .cons ?_ .nil
    have hcolor := s.followsGuiTheme_drawnGuiColor p.color
    have hborder := s.followsGuiTheme_drawnGuiColor p.borderColor
    have hfill := s.rel_guiColor? p.bgColor .fill
    exact (((((((((FollowsTheme.refl _).putColor (by decide) hcolor).putSame _ _).putColorIf (by decide) hfill).putSame
      _ _).putSame _ _).putColor (by decide) hborder).putSame _ _).putSame _ _)
  declarative := fun _ _ _ _ => .nil
  resolve := fun _ _ => rfl

theorem Image.followsTheme : Image.kind.FollowsTheme where
  collect := fun _ _ => rfl
  retained := fun s r w => Agree.bind fun p => Agree.bind fun source => .cons
    (((FollowsTheme.refl _).putColor (by decide) (s.followsGuiTheme_drawnGuiColor p.color)).putSame _ _) .nil
  declarative := fun _ _ _ _ => .nil
  resolve := fun _ _ => rfl

theorem Ellipse.followsTheme : Ellipse.kind.FollowsTheme where
  collect := fun _ _ => rfl
  retained := fun _ _ _ => .nil
  declarative := fun s _ _ _ => Agree.bind fun p => .cons (Instruction.followsTheme_ellipse
    (s.followsTheme_drawnColor p.outline) (rel_fillColor? p)) .nil
  resolve := fun _ _ => rfl

theorem followsTheme_of_builtin {k : WidgetKind} (hk : k ∈ builtin) : k.FollowsTheme := by
  simp only [builtin, List.mem_cons, List.not_mem_nil, or_false] at hk
  rcases hk with rfl | rfl | rfl | rfl | rfl | rfl | rfl | rfl | rfl
  · exact Clock.followsTheme
  · exact TextBlock.followsTheme
  · exact Rectangle.followsTheme
  · exact Circle.followsTheme
  · exact Line.followsTheme
  · exact Chart.followsTheme
  · exact Label.followsTheme
  · exact Image.followsTheme
  · exact Ellipse.followsTheme

end Kind

end Dashboard
