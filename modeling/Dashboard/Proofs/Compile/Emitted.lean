import Dashboard.Proofs.Compile.Skipping
import Dashboard.Proofs.Kind.Returned
/-!
# Layouts that are emitted as a whole

The count of a compile is the number of the widgets that it keeps. So a compile that counts as many as
its layout has keeps them all.
-/

namespace Dashboard

open Emission Number

/-- A widget of a known kind that serves the target and gives its content. -/
def Widget.IsEmitted (g : Registry) (s : Setting) (w : Widget) : Prop :=
  ∃ k, g.kind? w.kind = some k ∧ k.serves s.target = true ∧ k.Emits s w

/-- What was registered before makes no difference to whether a widget is emitted, nor to what it gives. -/
theorem Widget.IsEmitted.emit {g : Registry} {s : Setting} (hg : g.All WidgetKind.IsOblivious) {w : Widget}
    (h : w.IsEmitted g s) : ∃ k c, g.kind? w.kind = some k ∧ k.serves s.target = true ∧
      ∀ r, ∃ after, runWith (k.emit s w) r = (.ok c, after) := by
  obtain ⟨k, hk, hserves, r, c, after, he⟩ := h
  refine ⟨k, c, hk, hserves, fun r' => ?_⟩
  have hsame := (hg w.kind k hk).emit s w r r'
  rcases hrun : runWith (k.emit s w) r' with ⟨answer, last⟩
  rw [he, hrun] at hsame
  exact ⟨last, congrArg (·, last) hsame.symm⟩

namespace Registry

variable {g : Registry} {s : Setting}

theorem isEmitted_of_compileWidget {page : Nat} {w : Widget} {r : Resources}
    (h : (compileWidget g s page w r).1.emitted ≠ 0) : w.IsEmitted g s := by
  rcases hk : g.kind? w.kind with _ | k
  · rw [compileWidget_unknown hk] at h
    exact absurd rfl h
  cases hs : k.serves s.target with
  | false =>
    rw [compileWidget_unserved hk hs] at h
    exact absurd rfl h
  | true =>
    rcases he : runWith (k.emit s w) r with ⟨e | c, after⟩
    · rw [compileWidget_failed hk hs he] at h
      exact absurd rfl h
    · exact ⟨k, hk, hs, r, c, after, he⟩

theorem isEmitted_of_mem {page : Nat} {ws : List Widget} {r : Resources} {w : Widget}
    (h : w ∈ emittedWidgets g s page ws r) : w.IsEmitted g s := by
  induction ws generalizing r with
  | nil => exact absurd h List.not_mem_nil
  | cons w' ws ih =>
    rw [emittedWidgets] at h
    by_cases hfirst : (compileWidget g s page w' r).1.emitted = 0
    · simp only [if_pos hfirst] at h
      exact ih h
    · simp only [if_neg hfirst, List.mem_cons] at h
      rcases h with rfl | h
      · exact isEmitted_of_compileWidget hfirst
      · exact ih h

theorem isEmitted_of_mem_pages {index : Nat} {ps : List Page} {r : Resources} {w : Widget}
    (h : w ∈ (emittedPages g s index ps r).flatMap Page.widgets) : w.IsEmitted g s := by
  induction ps generalizing index r with
  | nil => exact absurd h List.not_mem_nil
  | cons p ps ih =>
    rw [emittedPages, List.flatMap_cons] at h
    rcases List.mem_append.mp h with hw | hw
    · exact isEmitted_of_mem hw
    · exact ih hw

theorem emittedWidgets_sublist (page : Nat) (ws : List Widget) (r : Resources) :
    (emittedWidgets g s page ws r).Sublist ws := by
  induction ws generalizing r with
  | nil => exact .slnil
  | cons w ws ih =>
    rw [emittedWidgets]
    by_cases hfirst : (compileWidget g s page w r).1.emitted = 0
    · simp only [if_pos hfirst]
      exact (ih _).cons w
    · simp only [if_neg hfirst]
      exact (ih _).cons_cons w

theorem emitted_compileWidgets (page : Nat) (ws : List Widget) (r : Resources) :
    (compileWidgets g s page ws r).1.emitted = (emittedWidgets g s page ws r).length := by
  induction ws generalizing r with
  | nil => rfl
  | cons w ws ih =>
    rw [compileWidgets_cons, emittedWidgets]
    change (compileWidget g s page w r).1.emitted +
      (compileWidgets g s page ws (compileWidget g s page w r).2).1.emitted = _
    rw [ih]
    rcases compileWidget_cases g s page w r with ⟨ds, hw⟩ | ⟨c, after, hw⟩
    · simp only [hw, if_true, Nat.zero_add]
    · simp only [hw, if_neg Nat.one_ne_zero, List.length_cons]
      omega

theorem emittedPages_sublist (index : Nat) (ps : List Page) (r : Resources) :
    ((emittedPages g s index ps r).flatMap Page.widgets).Sublist (ps.flatMap Page.widgets) := by
  induction ps generalizing index r with
  | nil => exact .slnil
  | cons p ps ih =>
    rw [emittedPages, List.flatMap_cons, List.flatMap_cons]
    exact (emittedWidgets_sublist index p.widgets r).append (ih _ _)

theorem emitted_compilePages (index : Nat) (ps : List Page) (r : Resources) :
    total ((compilePages g s index ps r).1.map fun p => p.progress.emitted) =
      ((emittedPages g s index ps r).flatMap Page.widgets).length := by
  induction ps generalizing index r with
  | nil => rfl
  | cons p ps ih =>
    rw [compilePages_cons, emittedPages, List.map_cons, List.flatMap_cons, List.length_append, ← ih]
    change (compileWidgets g s index p.widgets r).1.emitted + total _ = _
    rw [emitted_compileWidgets]

/-- Pages that keep as many widgets as they have keep all of them. -/
theorem emittedPages_eq {index : Nat} {ps : List Page} {r : Resources}
    (h : ((emittedPages g s index ps r).flatMap Page.widgets).length =
      (ps.flatMap Page.widgets).length) : emittedPages g s index ps r = ps := by
  induction ps generalizing index r with
  | nil => rfl
  | cons p ps ih =>
    have hwidgets := emittedWidgets_sublist (g := g) (s := s) index p.widgets r
    have hpages := emittedPages_sublist (g := g) (s := s) (index + 1) ps
      (compileWidgets g s index p.widgets r).2
    have hfirst := hwidgets.length_le
    have hothers := hpages.length_le
    simp only [emittedPages, List.flatMap_cons, List.length_append] at h
    rw [emittedPages, ih (by omega), hwidgets.eq_of_length (by omega)]

theorem emittedLayout_eq {o : Options} {l : Layout} {t : Target}
    (h : (compile g o l t).emitted = l.widgets.length) : emittedLayout g o l t = l := by
  rw [emitted_compile, emitted_compilePages] at h
  rw [emittedLayout, emittedPages_eq h]

theorem isEmitted_of_emittedLayout_eq {o : Options} {l : Layout} {t : Target}
    (h : emittedLayout g o l t = l) {w : Widget} (hw : w ∈ l.widgets) :
    w.IsEmitted g (settingOf o l t) := by
  have hpages : emittedPages g (settingOf o l t) 0 l.pages {} = l.pages := congrArg Layout.pages h
  have hmem : w ∈ (emittedPages g (settingOf o l t) 0 l.pages {}).flatMap Page.widgets :=
    hpages.symm ▸ hw
  exact isEmitted_of_mem_pages hmem

end Registry

end Dashboard
