import Dashboard.Proofs.Compile.Document
import Dashboard.Proofs.Kind.Alike
/-!
# Layouts that are drawn alike

Widgets that look alike and are drawn alike by their kinds put the same content on their pages and
register the same resources, so that layouts of such widgets have one report.
-/

namespace Dashboard

open Text Emission

/-- Widgets that look alike, for which their kind registers and draws the same. -/
structure Widget.IsDrawnAs (g : Registry) (w back : Widget) : Prop where
  resembles : w.Resembles back
  drawn : ∀ k, g.kind? w.kind = some k → ∀ s, k.collect s back = k.collect s w ∧
    k.procedural s back = k.procedural s w

/-- Pages of such widgets with the same name and interval. -/
structure Page.IsDrawnAs (g : Registry) (p back : Page) : Prop where
  name : back.name = p.name
  refreshSeconds : back.refreshSeconds = p.refreshSeconds
  widgets : List.Forall₂ (Widget.IsDrawnAs g) p.widgets back.widgets

/-- Widgets that look alike and emit the same in a setting. -/
structure Widget.EmitsAs (g : Registry) (s : Setting) (w back : Widget) : Prop where
  resembles : w.Resembles back
  emit : ∀ k, g.kind? w.kind = some k → k.emit s back = k.emit s w

/-- Pages of such widgets with the same name and interval. -/
structure Page.EmitsAs (g : Registry) (s : Setting) (p back : Page) : Prop where
  name : back.name = p.name
  refreshSeconds : back.refreshSeconds = p.refreshSeconds
  widgets : List.Forall₂ (Widget.EmitsAs g s) p.widgets back.widgets

/-- Compiled pages that are the same in a document. -/
structure PageProgress.ShowsAs (p back : PageProgress) : Prop where
  index : back.index = p.index
  name : back.page.name = p.page.name
  refreshSeconds : back.page.refreshSeconds = p.page.refreshSeconds
  progress : back.progress = p.progress

theorem map_congr_of_forall₂ {α β : Type} {R : α → α → Prop} {f : α → β} (hf : ∀ a b, R a b → f b = f a)
    {as bs : List α} (h : List.Forall₂ R as bs) : bs.map f = as.map f := by
  induction h with
  | nil => rfl
  | cons hab _ ih => rw [List.map_cons, List.map_cons, hf _ _ hab, ih]

theorem foldl_congr_of_forall₂ {α β : Type} {R : α → α → Prop} {f : β → α → β}
    (hf : ∀ a b, R a b → ∀ x, f x b = f x a) {as bs : List α} (h : List.Forall₂ R as bs) (x : β) :
    bs.foldl f x = as.foldl f x := by
  induction h generalizing x with
  | nil => rfl
  | cons hab _ ih => rw [List.foldl_cons, List.foldl_cons, hf _ _ hab, ih]

variable {g : Registry} {s : Setting} {o : Options} {l back : Layout} {t : Target}

theorem WidgetKind.DrawsAlike.emit {k : WidgetKind} {w back : Widget} (h : k.DrawsAlike w back) (s : Setting) :
    k.emit s back = k.emit s w := by
  simp only [WidgetKind.emit, collectFor, content, h.collect, h.procedural, h.retained, h.declarative]

theorem Widget.IsDrawnAs.emitsAs {w back : Widget} (h : w.IsDrawnAs g back) (hs : s.target = .procedural) :
    w.EmitsAs g s back where
  resembles := h.resembles
  emit k hk := by
    obtain ⟨hcollect, hprocedural⟩ := h.drawn k hk s
    simp only [WidgetKind.emit, WidgetKind.collectFor, WidgetKind.content, hs, hcollect, hprocedural]

theorem Page.IsDrawnAs.emitsAs {p back : Page} (h : p.IsDrawnAs g back) (hs : s.target = .procedural) :
    p.EmitsAs g s back where
  name := h.name
  refreshSeconds := h.refreshSeconds
  widgets := h.widgets.imp fun _ _ hw => hw.emitsAs hs

namespace Registry

theorem compileWidget_congr {w back : Widget} (h : w.EmitsAs g s back) (page : Nat) (r : Resources) :
    compileWidget g s page back r = compileWidget g s page w r := by
  unfold compileWidget
  rw [h.resembles.kind, h.resembles.id]
  cases hk : g.kind? w.kind with
  | none => rfl
  | some k => simp only [h.emit k hk]

theorem compileWidgets_congr (page : Nat) {ws backs : List Widget} (h : List.Forall₂ (Widget.EmitsAs g s) ws backs)
    (r : Resources) : compileWidgets g s page backs r = compileWidgets g s page ws r := by
  induction h generalizing r with
  | nil => rfl
  | cons hw _ ih => simp only [compileWidgets_cons, compileWidget_congr hw, ih]

theorem compilePages_congr (index : Nat) {ps backs : List Page} (h : List.Forall₂ (Page.EmitsAs g s) ps backs)
    (r : Resources) :
    List.Forall₂ PageProgress.ShowsAs (compilePages g s index ps r).1 (compilePages g s index backs r).1 ∧
      (compilePages g s index backs r).2 = (compilePages g s index ps r).2 := by
  induction h generalizing index r with
  | nil => exact ⟨.nil, rfl⟩
  | @cons p back ps backs hp _ ih =>
    obtain ⟨hpages, hresources⟩ := ih (index + 1) (compileWidgets g s index p.widgets r).2
    simp only [compilePages_cons, compileWidgets_congr index hp.widgets]
    exact ⟨.cons ⟨rfl, hp.name, hp.refreshSeconds, rfl⟩ hpages, hresources⟩

theorem output_congr {ps backs : List PageProgress} (h : List.Forall₂ PageProgress.ShowsAs ps backs) (r : Resources) :
    output s backs r = output s ps r := by
  have hprocedural : backs.map proceduralPage = ps.map proceduralPage :=
    map_congr_of_forall₂ (fun p back hp => by
      simp only [proceduralPage, hp.index, hp.name, hp.refreshSeconds, hp.progress]) h
  have hretained : backs.map retainedPage = ps.map retainedPage :=
    map_congr_of_forall₂ (fun p back hp => by simp only [retainedPage, hp.index, hp.progress]) h
  have hdeclarative : backs.map declarativePage = ps.map declarativePage :=
    map_congr_of_forall₂ (fun p back hp => by simp only [declarativePage, hp.index, hp.name, hp.progress]) h
  unfold output
  rw [hprocedural, hretained, hdeclarative]

/-! ## Entities -/

theorem registerEntity_congr (id : String) {entity entity' : Option String}
    (h : entity'.bind nonBlank? = entity.bind nonBlank?) (r : Resources) :
    Kind.registerEntity s id entity' r = Kind.registerEntity s id entity r := by
  have hnormal : ∀ e : Option String, e.bind Entity.normalize? =
      (e.bind nonBlank?).map fun e => if e.toList.contains '.' then e else "sensor." ++ e := by
    intro e
    cases e with
    | none => rfl
    | some e => rw [Option.bind_some, Option.bind_some, Entity.normalize?]
  rw [Kind.registerEntity, Kind.registerEntity, hnormal, hnormal, h]

theorem registerEntities_congr {w back : Widget} (h : w.Resembles back) (r : Resources) :
    Kind.registerEntities s r back = Kind.registerEntities s r w := by
  rw [Kind.registerEntities, Kind.registerEntities, h.id, h.entity,
    registerEntity_congr w.id h.secondEntity]

theorem filter_kind_congr (kind : String) {ws backs : List Widget}
    (h : List.Forall₂ Widget.Resembles ws backs) :
    List.Forall₂ Widget.Resembles (ws.filter fun w => w.kind == kind)
      (backs.filter fun w => w.kind == kind) := by
  induction h with
  | nil => exact .nil
  | @cons w back ws backs hw _ ih =>
    rw [List.filter_cons, List.filter_cons, hw.kind]
    split
    · exact .cons hw ih
    · exact ih

theorem resolveKinds_congr (hg : g.IsWritten) {ws backs : List Widget}
    (h : List.Forall₂ Widget.Resembles ws backs) (kinds : List String) (r : Resources) :
    resolveKinds g s backs kinds r = resolveKinds g s ws kinds r := by
  induction kinds generalizing r with
  | nil => rfl
  | cons kind kinds ih =>
    have hkind : resolveKind g s backs kind r = resolveKind g s ws kind r := by
      unfold resolveKind
      cases hk : g.kind? kind with
      | none => rfl
      | some k =>
        have hresolve : k.resolve s (backs.filter fun w => w.kind == kind) =
            k.resolve s (ws.filter fun w => w.kind == kind) := by
          rcases hg.resolves kind k hk with hpure | hwidgets
          · rw [hpure]
          · rw [hwidgets]
            refine congrArg modify (funext fun r => ?_)
            exact foldl_congr_of_forall₂ (fun _ _ hw => registerEntities_congr hw) (filter_kind_congr kind h) r
        simp only [hresolve]
    simp only [resolveKinds, hkind, ih]

theorem registerConditions_congr {ws backs : List Widget} (h : List.Forall₂ Widget.Resembles ws backs)
    (r : Resources) : registerConditions s backs r = registerConditions s ws r := by
  have hfold : backs.foldl (registerCondition s) r = ws.foldl (registerCondition s) r :=
    foldl_congr_of_forall₂ (fun w back hw r => by
      rw [registerCondition, registerCondition, hw.id, hw.conditionEntity]) h r
  rw [registerConditions, registerConditions, hfold]

/-- Layouts that emit the same have the same report. -/
theorem compile_congr (hg : g.IsWritten) (hdark : back.settings.darkMode = l.settings.darkMode)
    (h : List.Forall₂ (Page.EmitsAs g (settingOf o l t)) l.pages back.pages) :
    compile g o back t = compile g o l t := by
  have hwidgets : List.Forall₂ Widget.Resembles l.widgets back.widgets :=
    List.rel_flatMap h fun p q hp => hp.widgets.imp fun _ _ hw => hw.resembles
  have hkinds : kindsOf back.widgets = kindsOf l.widgets := by
    rw [kindsOf, kindsOf, map_congr_of_forall₂ (fun _ _ hw => hw.kind) hwidgets]
  obtain ⟨hpages, hresources⟩ := compilePages_congr 0 h {}
  have hdiagnostics := map_congr_of_forall₂ (f := fun p : PageProgress => p.progress.diagnostics)
    (fun _ _ hp => congrArg Progress.diagnostics hp.progress) hpages
  have hemitted := map_congr_of_forall₂ (f := fun p : PageProgress => p.progress.emitted)
    (fun _ _ hp => congrArg Progress.emitted hp.progress) hpages
  unfold settingOf at hpages hresources hdiagnostics hemitted
  unfold compile
  simp only [hdark, hresources, hkinds, resolveKinds_congr hg hwidgets, registerConditions_congr hwidgets,
    output_congr hpages, List.flatMap_def, hdiagnostics, hemitted]

/-- Layouts that are drawn alike have the same document. -/
theorem document_congr (hg : g.IsWritten) (o : Options) {l back : Layout}
    (hsettings : back.settings = l.settings) (h : List.Forall₂ (Page.IsDrawnAs g) l.pages back.pages) :
    document g o back = document g o l := by
  have hreport : compile g o back .procedural = compile g o l .procedural :=
    compile_congr hg (by rw [hsettings]) (h.imp fun _ _ hp => hp.emitsAs rfl)
  exact Output.procedural.inj (congrArg Report.output hreport)

end Registry

end Dashboard
