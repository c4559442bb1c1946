import Dashboard.Proofs.Compile.Composition
import Dashboard.Proofs.Kind.Themes
/-!
# A theme changes nothing but colors

A layout is compiled twice, for a light and for a dark theme, to nodes or to instructions. The reports agree in
everything but the colors that the layout leaves to its theme.
-/

namespace Dashboard

open Emission

/-! ## Contents -/

namespace Content

/-- Contents in the two themes. -/
structure FollowsTheme (a b : Content) : Prop where
  nodes : List.Forall₂ RetainedNode.FollowsTheme a.nodes b.nodes
  instructions : List.Forall₂ Instruction.FollowsTheme a.instructions b.instructions

theorem isCongruence_followsTheme : IsCongruence FollowsTheme where
  empty := ⟨.nil, .nil⟩
  append := fun ha hb => ⟨List.rel_append ha.nodes hb.nodes, List.rel_append ha.instructions hb.instructions⟩

end Content

theorem WidgetKind.FollowsTheme.agrees {k : WidgetKind} (hk : k.FollowsTheme) {s : Setting}
    (hs : s.target ≠ .procedural) : k.Agrees Content.FollowsTheme (s.withDark false) (s.withDark true) where
  target := rfl
  serves := rfl
  collect := fun w _ => hk.collect s w
  content := by
    intro w _ r
    have htarget : ∀ dark, (s.withDark dark).target = s.target := fun _ => rfl
    cases ht : s.target with
    | procedural => exact absurd ht hs
    | retained =>
      rw [runWith_content_retained ((htarget false).trans ht), runWith_content_retained ((htarget true).trans ht)]
      exact ⟨(hk.retained s r w).map fun _ _ h => ⟨h, .nil⟩, rfl⟩
    | declarative f =>
      rw [runWith_content_declarative ((htarget false).trans ht),
        runWith_content_declarative ((htarget true).trans ht)]
      exact ⟨(hk.declarative s r f w).map fun _ _ h => ⟨.nil, h⟩, rfl⟩
  resolve := fun ws _ => hk.resolve s ws

/-! ## Documents -/

structure RetainedPage.FollowsTheme (p q : RetainedPage) : Prop where
  id : p.id = q.id
  widgets : List.Forall₂ RetainedNode.FollowsTheme p.widgets q.widgets

structure DeclarativePage.FollowsTheme (p q : DeclarativePage) : Prop where
  id : p.id = q.id
  name : p.name = q.name
  instructions : List.Forall₂ Instruction.FollowsTheme p.instructions q.instructions

/-- Documents of one kind in the two themes. All that is outside the pages is the same. -/
inductive Output.FollowsTheme : Output → Output → Prop
  | retained (d : RetainedDocument) {pages : List RetainedPage}
    (h : List.Forall₂ RetainedPage.FollowsTheme d.pages pages) :
    FollowsTheme (.retained d) (.retained { d with pages })
  | declarative (d : DeclarativeDocument) {pages : List DeclarativePage}
    (h : List.Forall₂ DeclarativePage.FollowsTheme d.pages pages) :
    FollowsTheme (.declarative d) (.declarative { d with pages })

namespace Registry

theorem output_followsTheme {s : Setting} (hs : s.target ≠ .procedural) {ps qs : List PageProgress}
    (h : List.Forall₂ (PageProgress.Agrees Content.FollowsTheme) ps qs) (r : Resources) :
    (output (s.withDark false) ps r).FollowsTheme (output (s.withDark true) qs r) := by
  have hretained : List.Forall₂ RetainedPage.FollowsTheme (ps.map retainedPage) (qs.map retainedPage) := by
    refine List.rel_map (fun p q hp => ⟨?_, hp.progress.content.nodes⟩) h
    rw [retainedPage, retainedPage, hp.index]
  have hdeclarative : List.Forall₂ DeclarativePage.FollowsTheme (ps.map declarativePage)
      (qs.map declarativePage) := by
    refine List.rel_map (fun p q hp => ⟨hp.index.symm, ?_, hp.progress.content.instructions⟩) h
    rw [declarativePage, declarativePage, hp.page]
  have hlight : (s.withDark false).target = s.target := rfl
  have hdark : (s.withDark true).target = s.target := rfl
  unfold output
  rw [hlight, hdark]
  cases ht : s.target with
  | procedural => exact absurd ht hs
  | retained => exact .retained _ hretained
  | declarative f => exact .declarative _ hdeclarative

/-- A theme changes nothing but colors. For nodes and for instructions, the dark and the light compile of a
layout have the same diagnostics and the same count, and their documents differ in colors only: a color that the
layout leaves to the theme is black in the one and white in the other. -/
theorem compile_followsTheme (names : List String) (o : Options) (l : Layout) {t : Target} (ht : t ≠ .procedural) :
    let light := compile (ofNames names) o (l.withDarkMode false) t
    let dark := compile (ofNames names) o (l.withDarkMode true) t
    dark.diagnostics = light.diagnostics ∧ dark.emitted = light.emitted ∧
      light.output.FollowsTheme dark.output := by
  have hg : (ofNames names).All (WidgetKind.Agrees Content.FollowsTheme (settingOf o (l.withDarkMode false) t)
      (settingOf o (l.withDarkMode true) t)) :=
    all_ofNames (fun _ hk => (Kind.followsTheme_of_builtin hk).agrees (s := settingOf o l t) ht) names
  have hsame : (l.withDarkMode true).pages = (l.withDarkMode false).pages := rfl
  obtain ⟨hdiagnostics, hemitted, hpages, hresources⟩ :=
    compile_alongside Content.isCongruence_followsTheme hsame ht ht hg
  refine ⟨hdiagnostics, hemitted, ?_⟩
  rw [output_compile, output_compile, hresources]
  exact output_followsTheme (s := settingOf o l t) ht hpages _

/-- A text in the color of the theme in front of a red box. -/
def themedLayout : Layout :=
  { pages := [{ id := "page_0", name := "Page 1", widgets :=
      [{ Widget.make "box" "shape_rect" with props := [("color", .string "red"), ("fill", .bool true)] },
        .make "label" "text"] }] }

theorem compile_followsTheme_themed :
    let light := compile (ofNames ["shape_rect", "text"]) {} (themedLayout.withDarkMode false) .retained
    let dark := compile (ofNames ["shape_rect", "text"]) {} (themedLayout.withDarkMode true) .retained
    light.emitted = 2 ∧ dark.diagnostics = light.diagnostics ∧ dark.emitted = light.emitted ∧
      light.output.FollowsTheme dark.output :=
  ⟨by decide +kernel, compile_followsTheme ["shape_rect", "text"] {} themedLayout Target.noConfusion⟩

end Registry

end Dashboard
