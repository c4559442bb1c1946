import Dashboard.Proofs.Compile.Run
/-!
# Compiling is compositional

The widgets of a layout are compiled as if each of them stood alone: a page shows what its widgets
show on their own, one after the other, and the diagnostics and the count of emitted widgets are
those of the widgets on their own. The resources that widgets share influence none of this, because
every built-in kind is oblivious of them.
-/

namespace Dashboard

open Emission Number

theorem Number.total_append (ms ns : List Nat) : total (ms ++ ns) = total ms + total ns := by
  induction ms with
  | nil => exact (Nat.zero_add _).symm
  | cons m ms ih =>
    change m + total (ms ++ ns) = m + total ms + total ns
    rw [ih, Nat.add_assoc]

theorem Number.total_flatMap {α : Type} (f : α → List Nat) (as : List α) :
    total (as.flatMap f) = total (as.map fun a => total (f a)) := by
  induction as with
  | nil => rfl
  | cons a as ih =>
    rw [List.flatMap_cons, total_append, ih]
    rfl

namespace Content

def join (cs : List Content) : Content := cs.foldr (fun a b => a ++ b) {}

@[simp] theorem join_nil : join [] = {} := rfl

@[simp] theorem join_cons (c : Content) (cs : List Content) : join (c :: cs) = c ++ join cs := rfl

@[simp] theorem append_empty (c : Content) : c ++ ({} : Content) = c := by
  change append c {} = c
  simp [append]

theorem statements_join (cs : List Content) : (join cs).statements = cs.flatMap Content.statements := by
  induction cs with
  | nil => rfl
  | cons c cs ih =>
    rw [List.flatMap_cons, ← ih]
    rfl

/-- The part of a content that a document for a target shows. -/
def view (t : Target) (c : Content) : Content :=
  match t with
  | .procedural => { statements := c.statements }
  | .retained => { nodes := c.nodes }
  | .declarative _ => { instructions := c.instructions }

theorem view_empty (t : Target) : view t {} = {} := by
  cases t <;> rfl

theorem view_append (t : Target) (a b : Content) : view t (a ++ b) = view t a ++ view t b := by
  cases t <;> rfl

theorem view_join (t : Target) (cs : List Content) : view t (join cs) = join (cs.map (view t)) := by
  induction cs with
  | nil => exact view_empty t
  | cons c cs ih => rw [join_cons, view_append, ih, List.map_cons, join_cons]

end Content

namespace Diagnostic

/-- The same diagnostic about a widget of another page. -/
def onPage (page : Nat) : Diagnostic → Diagnostic
  | .unknownKind _ widget kind => .unknownKind page widget kind
  | .widgetFailed _ widget kind reason => .widgetFailed page widget kind reason
  | .resolutionFailed kind reason => .resolutionFailed kind reason

end Diagnostic

namespace Progress

def join (ps : List Progress) : Progress := ps.foldr (fun a b => a ++ b) {}

def onPage (page : Nat) (p : Progress) : Progress :=
  { p with diagnostics := p.diagnostics.map (.onPage page) }

theorem content_join (ps : List Progress) : (join ps).content = .join (ps.map Progress.content) := by
  induction ps with
  | nil => rfl
  | cons p ps ih => exact congrArg (p.content ++ ·) ih

theorem diagnostics_join (ps : List Progress) :
    (join ps).diagnostics = ps.flatMap Progress.diagnostics := by
  induction ps with
  | nil => rfl
  | cons p ps ih => exact congrArg (p.diagnostics ++ ·) ih

theorem emitted_join (ps : List Progress) : (join ps).emitted = total (ps.map Progress.emitted) := by
  induction ps with
  | nil => rfl
  | cons p ps ih => exact congrArg (p.emitted + ·) ih

end Progress

namespace Output

/-- What the pages of a document show, in document order. -/
def contents : Output → List Content
  | .procedural d => d.pages.map fun p => { statements := p.body }
  | .retained d => d.pages.map fun p => { nodes := p.widgets }
  | .declarative d => d.pages.map fun p => { instructions := p.instructions }

/-- The numbers of the pages as the document writes them, each with its name if it has one there. -/
def pageLabels : Output → List (String × Option String)
  | .procedural d => d.pages.map fun p => (natText p.index, some p.name)
  | .retained d => d.pages.map fun p => (p.id, none)
  | .declarative d => d.pages.map fun p => (natText p.id, some p.name)

end Output

/-- The label of a page that stands at an index of a layout. -/
def Target.pageLabel (t : Target) (p : Page) (index : Nat) : String × Option String :=
  match t with
  | .procedural => (natText index, some p.name)
  | .retained => ("page_" ++ natText index, none)
  | .declarative _ => (natText index, some p.name)

/-- A layout with one page that holds one widget. -/
def Layout.solo (settings : Settings) (w : Widget) : Layout where
  settings := settings
  pages := [{ Page.make 0 with widgets := [w] }]

namespace Registry

variable {g : Registry}

theorem compileWidget_fst (hg : g.All WidgetKind.IsOblivious) (s : Setting) (page : Nat) (w : Widget)
    (r : Resources) :
    (compileWidget g s page w r).1 = (compileWidget g s 0 w {}).1.onPage page := by
  rcases hk : g.kind? w.kind with _ | k
  · rw [compileWidget_unknown hk, compileWidget_unknown hk]
    rfl
  cases hs : k.serves s.target with
  | false =>
    rw [compileWidget_unserved hk hs, compileWidget_unserved hk hs]
    rfl
  | true =>
    have h := (hg w.kind k hk).emit s w r {}
    rcases hr : runWith (k.emit s w) r with ⟨answer, after⟩
    rcases hr' : runWith (k.emit s w) {} with ⟨answer', after'⟩
    rw [hr, hr'] at h
    subst h
    cases answer with
    | error e =>
      rw [compileWidget_failed hk hs hr, compileWidget_failed hk hs hr']
      rfl
    | ok c =>
      rw [compileWidget_emitted hk hs hr, compileWidget_emitted hk hs hr']
      rfl

theorem compileWidgets_fst (hg : g.All WidgetKind.IsOblivious) (s : Setting) (page : Nat)
    (ws : List Widget) (r : Resources) :
    (compileWidgets g s page ws r).1 =
      .join (ws.map fun w => (compileWidget g s 0 w {}).1.onPage page) := by
  induction ws generalizing r with
  | nil => rfl
  | cons w ws ih =>
    rw [compileWidgets_cons, ih, compileWidget_fst hg]
    rfl

theorem compilePages_fst (hg : g.All WidgetKind.IsOblivious) (s : Setting) (index : Nat)
    (ps : List Page) (r : Resources) :
    (compilePages g s index ps r).1 = (ps.zipIdx index).map fun p =>
      ⟨p.2, p.1, .join (p.1.widgets.map fun w => (compileWidget g s 0 w {}).1.onPage p.2)⟩ := by
  induction ps generalizing index r with
  | nil => rfl
  | cons p ps ih =>
    rw [compilePages_cons, ih, compileWidgets_fst hg]
    rfl

/-- A page of a layout is compiled from what its widgets give on their own. -/
theorem mem_compilePages (hg : g.All WidgetKind.IsOblivious) (s : Setting) {ps : List Page} {p : Page} {i : Nat}
    (hp : (p, i) ∈ ps.zipIdx) : ⟨i, p, .join (p.widgets.map fun w => (compileWidget g s 0 w {}).1.onPage i)⟩ ∈
      (compilePages g s 0 ps {}).1 := by
  rw [compilePages_fst hg]
  exact List.mem_map.mpr ⟨(p, i), hp, rfl⟩

theorem contents_output (s : Setting) (pages : List PageProgress) (r : Resources) :
    (output s pages r).contents = pages.map fun p => .view s.target p.progress.content := by
  unfold output
  cases s.target <;> simp only [Output.contents, List.map_map] <;> rfl

theorem pageLabels_output (s : Setting) (pages : List PageProgress) (r : Resources) :
    (output s pages r).pageLabels = pages.map fun p => s.target.pageLabel p.page p.index := by
  unfold output
  cases s.target <;> simp only [Output.pageLabels, List.map_map] <;> rfl

theorem compile_solo (hr : g.All WidgetKind.ResolvesTriggersOnly) (o : Options) (settings : Settings)
    (w : Widget) (t : Target) :
    let s : Setting := { target := t, dark := settings.darkMode, options := o }
    let alone := (compileWidget g s 0 w {}).1
    let report := compile g o (.solo settings w) t
    report.output.contents = [alone.content.view t] ∧ report.emitted = alone.emitted ∧
      report.diagnostics = alone.diagnostics := by
  intro s alone report
  have hpages : (compilePages g s 0 (Layout.solo settings w).pages {}).1 =
      [⟨0, { Page.make 0 with widgets := [w] }, alone ++ {}⟩] := rfl
  refine ⟨?_, ?_, ?_⟩
  · rw [output_compile, contents_output]
    change List.map _ (compilePages g s 0 (Layout.solo settings w).pages {}).1 = _
    rw [hpages]
    change [(alone.content ++ ({} : Content)).view t] = _
    rw [Content.append_empty]
  · rw [emitted_compile]
    change total (List.map _ (compilePages g s 0 (Layout.solo settings w).pages {}).1) = _
    rw [hpages]
    rfl
  · rw [diagnostics_compile hr]
    change List.flatMap _ (compilePages g s 0 (Layout.solo settings w).pages {}).1 = _
    rw [hpages]
    change (alone.diagnostics ++ []) ++ [] = alone.diagnostics
    rw [List.append_nil, List.append_nil]

section layout

variable (hg : g.All WidgetKind.IsOblivious) (hr : g.All WidgetKind.ResolvesTriggersOnly)
variable (o : Options) (l : Layout) (t : Target)

include hg in
theorem pageLabels_compile :
    (compile g o l t).output.pageLabels = l.pages.zipIdx.map fun p => t.pageLabel p.1 p.2 := by
  rw [output_compile, pageLabels_output, compilePages_fst hg, List.map_map]
  rfl

include hg hr

theorem contents_compile :
    (compile g o l t).output.contents = l.pages.map fun p =>
      .join (p.widgets.map fun w => .join (compile g o (.solo l.settings w) t).output.contents) := by
  have hsolo : ∀ w, Content.join (compile g o (.solo l.settings w) t).output.contents =
      ((compileWidget g (settingOf o l t) 0 w {}).1.content.view t) := by
    intro w
    rw [(compile_solo hr o l.settings w t).1, Content.join_cons, Content.join_nil,
      Content.append_empty]
    rfl
  rw [output_compile, contents_output, compilePages_fst hg, List.map_map]
  simp only [hsolo]
  rw [← List.zipIdx_map_fst 0 l.pages, List.map_map, List.zipIdx_map_fst]
  refine List.map_congr_left fun p _ => ?_
  change Content.view t (Progress.join _).content = Content.join _
  rw [Progress.content_join, Content.view_join, List.map_map, List.map_map]
  rfl

theorem emitted_compile_solo :
    (compile g o l t).emitted =
      total (l.widgets.map fun w => (compile g o (.solo l.settings w) t).emitted) := by
  have hsolo : ∀ w, (compile g o (.solo l.settings w) t).emitted =
      (compileWidget g (settingOf o l t) 0 w {}).1.emitted := fun w =>
    (compile_solo hr o l.settings w t).2.1
  rw [emitted_compile, compilePages_fst hg, List.map_map]
  simp only [hsolo]
  rw [Layout.widgets, List.map_flatMap, total_flatMap, ← List.zipIdx_map_fst 0 l.pages, List.map_map,
    List.zipIdx_map_fst]
  refine congrArg total (List.map_congr_left fun p _ => ?_)
  change (Progress.join _).emitted = _
  rw [Progress.emitted_join, List.map_map]
  rfl

theorem diagnostics_compile_solo :
    (compile g o l t).diagnostics = l.pages.zipIdx.flatMap fun p => p.1.widgets.flatMap fun w =>
      (compile g o (.solo l.settings w) t).diagnostics.map (.onPage p.2) := by
  have hsolo : ∀ w, (compile g o (.solo l.settings w) t).diagnostics =
      (compileWidget g (settingOf o l t) 0 w {}).1.diagnostics := fun w =>
    (compile_solo hr o l.settings w t).2.2
  rw [diagnostics_compile hr, compilePages_fst hg, List.flatMap_map]
  simp only [hsolo]
  rw [List.flatMap_def, List.flatMap_def]
  refine congrArg List.flatten (List.map_congr_left fun p _ => ?_)
  rw [Progress.diagnostics_join, List.flatMap_map]
  rfl

end layout

/-- The registry of some of the built-in kinds, given by their names. -/
def ofNames (names : List String) : Registry := ofKinds (names.filterMap Kind.builtin?)

theorem all_ofNames {P : WidgetKind → Prop} (h : ∀ k ∈ Kind.builtin, P k) (names : List String) :
    (ofNames names).All P := by
  refine all_ofKinds fun k hk => ?_
  obtain ⟨name, -, hname⟩ := List.mem_filterMap.mp hk
  exact h k (List.mem_of_find?_eq_some hname)

/-- The registry of all built-in kinds is the one of all their names. -/
theorem ofNames_builtin : ofNames (Kind.builtin.map WidgetKind.id) = builtin := rfl

/-- Compiling is compositional over every registry of built-in kinds. The document has the pages of
the layout in their order; each page shows what its widgets show in a document of their own, with
the same settings; and the count and the diagnostics are those of the widgets on their own. -/
theorem compile_eq_solos (names : List String) (o : Options) (l : Layout) (t : Target) :
    let report := compile (ofNames names) o l t
    let solo := fun w => compile (ofNames names) o (.solo l.settings w) t
    report.output.pageLabels = l.pages.zipIdx.map (fun p => t.pageLabel p.1 p.2) ∧
      report.output.contents =
        l.pages.map (fun p => .join (p.widgets.map fun w => .join (solo w).output.contents)) ∧
      report.emitted = total (l.widgets.map fun w => (solo w).emitted) ∧
      report.diagnostics = l.pages.zipIdx.flatMap fun p =>
        p.1.widgets.flatMap fun w => (solo w).diagnostics.map (.onPage p.2) := by
  have hg : (ofNames names).All WidgetKind.IsOblivious :=
    all_ofNames (fun _ hk => WidgetKind.isOblivious_of_builtin hk) names
  have hr : (ofNames names).All WidgetKind.ResolvesTriggersOnly :=
    all_ofNames (fun _ hk => WidgetKind.resolvesTriggersOnly_of_builtin hk) names
  exact ⟨pageLabels_compile hg o l t, contents_compile hg hr o l t,
    emitted_compile_solo hg hr o l t, diagnostics_compile_solo hg hr o l t⟩

end Registry

end Dashboard
