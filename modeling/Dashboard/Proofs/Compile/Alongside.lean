import Dashboard.Proofs.Compile.Run
import Mathlib.Data.List.Forall2
import Mathlib.Logic.Basic
/-!
# Two compiles side by side

One layout is compiled with two settings, which stand for two themes or for two renderers. If for every
widget a kind gives the same error or contents that are related, and registers the same, then the compiles
agree as a whole: in their diagnostics, their count and their resources, and page by page in what they show.
-/

namespace Dashboard

namespace Emission

variable {α β γ δ : Type} {R : α → β → Prop} {Q : γ → δ → Prop}

/-- The same error twice, or two answers that are related. -/
def Agree (R : α → β → Prop) : Except ExportError α → Except ExportError β → Prop
  | .ok a, .ok b => R a b
  | .error e, .error e' => e = e'
  | _, _ => False

theorem Agree.map {x : Except ExportError α} {y : Except ExportError β} (h : Agree R x y) {f : α → γ}
    {g : β → δ} (hfg : ∀ a b, R a b → Q (f a) (g b)) : Agree Q (x.map f) (y.map g) := by
  cases x with
  | ok a =>
    cases y with
    | ok b => exact hfg a b h
    | error e => exact h.elim
  | error e =>
    cases y with
    | ok b => exact h.elim
    | error e' => exact h

/-- Two computations that go on from the same answer. -/
theorem Agree.bind {x : Except ExportError γ} {f : γ → Except ExportError α} {g : γ → Except ExportError β}
    (h : ∀ a, Agree R (f a) (g a)) : Agree R (x >>= f) (x >>= g) := by
  cases x with
  | ok a => exact h a
  | error e => exact rfl

/-- Two computations that agree in their answers and register the same. -/
def Alongside (R : α → β → Prop) (e : Emission α) (e' : Emission β) : Prop :=
  ∀ r, Agree R (runWith e r).1 (runWith e' r).1 ∧ (runWith e' r).2 = (runWith e r).2

theorem Alongside.bind {e : Emission γ} {f : γ → Emission α} {g : γ → Emission β}
    (h : ∀ a, Alongside R (f a) (g a)) : Alongside R (e >>= f) (e >>= g) := by
  intro r
  rw [runWith_bind, runWith_bind]
  rcases runWith e r with ⟨x | a, after⟩
  · exact ⟨rfl, rfl⟩
  · exact h a after

end Emission

open Emission

namespace Content

/-- A relation that holds between contents as soon as it holds between their parts. -/
structure IsCongruence (R : Content → Content → Prop) : Prop where
  empty : R {} {}
  append : ∀ {a b a' b'}, R a a' → R b b' → R (a ++ b) (a' ++ b')

end Content

structure Progress.Agrees (R : Content → Content → Prop) (p q : Progress) : Prop where
  content : R p.content q.content
  diagnostics : q.diagnostics = p.diagnostics
  emitted : q.emitted = p.emitted

structure PageProgress.Agrees (R : Content → Content → Prop) (p q : PageProgress) : Prop where
  index : q.index = p.index
  page : q.page = p.page
  progress : p.progress.Agrees R q.progress

theorem PageProgress.flatMap_diagnostics {R : Content → Content → Prop} {ps qs : List PageProgress}
    (h : List.Forall₂ (Agrees R) ps qs) :
    qs.flatMap (fun p => p.progress.diagnostics) = ps.flatMap fun p => p.progress.diagnostics := by
  induction h with
  | nil => rfl
  | cons hp _ ih => rw [List.flatMap_cons, List.flatMap_cons, hp.progress.diagnostics, ih]

theorem PageProgress.map_emitted {R : Content → Content → Prop} {ps qs : List PageProgress}
    (h : List.Forall₂ (Agrees R) ps qs) :
    qs.map (fun p => p.progress.emitted) = ps.map fun p => p.progress.emitted := by
  induction h with
  | nil => rfl
  | cons hp _ ih => rw [List.map_cons, List.map_cons, hp.progress.emitted, ih]

namespace WidgetKind

variable {k : WidgetKind} {s s' : Setting} {R : Content → Content → Prop}

theorem runWith_content_retained (hs : s.target = .retained) (w : Widget) (r : Resources) :
    runWith (k.content s w) r = ((k.retained s r w).map fun nodes => { nodes }, r) := by
  unfold content
  rw [hs]
  simp only [runWith_bind, runWith_get, runWith_ofExcept]
  cases k.retained s r w <;> rfl

theorem runWith_content_declarative {f : Flavor} (hs : s.target = .declarative f) (w : Widget) (r : Resources) :
    runWith (k.content s w) r = ((k.declarative s r f w).map fun instructions => { instructions }, r) := by
  unfold content
  rw [hs]
  simp only [runWith_bind, runWith_get, runWith_ofExcept]
  cases k.declarative s r f w <;> rfl

/-- A kind that serves both settings or none, registers the same and gives related contents. -/
structure Agrees (R : Content → Content → Prop) (s s' : Setting) (k : WidgetKind) : Prop where
  target : k.descriptor.supportsTarget s'.target = k.descriptor.supportsTarget s.target
  serves : k.serves s'.target = k.serves s.target
  collect : ∀ w, k.serves s.target = true → k.collect s' w = k.collect s w
  content : ∀ w, k.serves s.target = true → Alongside R (k.content s w) (k.content s' w)
  resolve : ∀ ws, k.descriptor.supports .resolveEntities = true → k.resolve s' ws = k.resolve s ws

theorem Agrees.emit (h : k.Agrees R s s') (w : Widget) (hserves : k.serves s.target = true) :
    Alongside R (k.emit s w) (k.emit s' w) := by
  have hcollect : k.collectFor s' w = k.collectFor s w := by
    rw [collectFor, collectFor, h.collect w hserves]
  rw [WidgetKind.emit, WidgetKind.emit, hcollect]
  exact .bind fun _ => h.content w hserves

end WidgetKind

namespace Registry

variable {g : Registry} {s s' : Setting} {R : Content → Content → Prop}

theorem compileWidget_alongside (hR : Content.IsCongruence R) (hg : g.All (WidgetKind.Agrees R s s'))
    (page : Nat) (w : Widget) (r : Resources) :
    (compileWidget g s page w r).1.Agrees R (compileWidget g s' page w r).1 ∧
      (compileWidget g s' page w r).2 = (compileWidget g s page w r).2 := by
  rcases hk : g.kind? w.kind with _ | k
  · rw [compileWidget_unknown hk, compileWidget_unknown hk]
    exact ⟨⟨hR.empty, rfl, rfl⟩, rfl⟩
  have hkind := hg w.kind k hk
  cases hserves : k.serves s.target with
  | false =>
    rw [compileWidget_unserved hk hserves, compileWidget_unserved hk (hkind.serves.trans hserves)]
    exact ⟨⟨hR.empty, rfl, rfl⟩, rfl⟩
  | true =>
    have hserves' := hkind.serves.trans hserves
    obtain ⟨hanswers, hafter⟩ := hkind.emit w hserves r
    rcases hrun : runWith (k.emit s w) r with ⟨answer, after⟩
    rcases hrun' : runWith (k.emit s' w) r with ⟨answer', after'⟩
    rw [hrun, hrun'] at hanswers hafter
    cases answer with
    | error e =>
      cases answer' with
      | error e' =>
        obtain rfl : e = e' := hanswers
        rw [compileWidget_failed hk hserves hrun, compileWidget_failed hk hserves' hrun']
        exact ⟨⟨hR.empty, rfl, rfl⟩, rfl⟩
      | ok c => exact hanswers.elim
    | ok c =>
      cases answer' with
      | error e' => exact hanswers.elim
      | ok c' =>
        rw [compileWidget_emitted hk hserves hrun, compileWidget_emitted hk hserves' hrun']
        exact ⟨⟨hanswers, rfl, rfl⟩, hafter⟩

theorem compileWidgets_alongside (hR : Content.IsCongruence R) (hg : g.All (WidgetKind.Agrees R s s'))
    (page : Nat) (ws : List Widget) (r : Resources) :
    (compileWidgets g s page ws r).1.Agrees R (compileWidgets g s' page ws r).1 ∧
      (compileWidgets g s' page ws r).2 = (compileWidgets g s page ws r).2 := by
  induction ws generalizing r with
  | nil => exact ⟨⟨hR.empty, rfl, rfl⟩, rfl⟩
  | cons w ws ih =>
    obtain ⟨hfirst, hmiddle⟩ := compileWidget_alongside hR hg page w r
    rw [compileWidgets_cons, compileWidgets_cons, hmiddle]
    obtain ⟨hothers, hafter⟩ := ih (compileWidget g s page w r).2
    exact ⟨⟨hR.append hfirst.content hothers.content, congrArg₂ _ hfirst.diagnostics hothers.diagnostics,
      congrArg₂ _ hfirst.emitted hothers.emitted⟩, hafter⟩

theorem compilePages_alongside (hR : Content.IsCongruence R) (hg : g.All (WidgetKind.Agrees R s s'))
    (index : Nat) (ps : List Page) (r : Resources) :
    List.Forall₂ (PageProgress.Agrees R) (compilePages g s index ps r).1 (compilePages g s' index ps r).1 ∧
      (compilePages g s' index ps r).2 = (compilePages g s index ps r).2 := by
  induction ps generalizing index r with
  | nil => exact ⟨.nil, rfl⟩
  | cons p ps ih =>
    obtain ⟨hfirst, hmiddle⟩ := compileWidgets_alongside hR hg index p.widgets r
    rw [compilePages_cons, compilePages_cons, hmiddle]
    obtain ⟨hothers, hafter⟩ := ih (index + 1) (compileWidgets g s index p.widgets r).2
    exact ⟨.cons ⟨rfl, rfl, hfirst⟩ hothers, hafter⟩

theorem resolveKinds_alongside (hg : g.All (WidgetKind.Agrees R s s')) (ws : List Widget)
    (kinds : List String) (r : Resources) : resolveKinds g s' ws kinds r = resolveKinds g s ws kinds r := by
  induction kinds generalizing r with
  | nil => rfl
  | cons kind kinds ih =>
    have hkind : resolveKind g s' ws kind r = resolveKind g s ws kind r := by
      unfold resolveKind
      cases hk : g.kind? kind with
      | none => rfl
      | some k =>
        have hagrees := hg kind k hk
        cases hresolves : k.descriptor.supports .resolveEntities with
        | false => simp only [hresolves, Bool.false_and, Bool.false_eq_true, if_false]
        | true => simp only [hresolves, hagrees.target, hagrees.resolve _ hresolves]
    simp only [resolveKinds, hkind, ih]

/-- Two compiles of the same pages, neither of them to drawing code. -/
theorem compile_alongside (hR : Content.IsCongruence R) {o : Options} {l l' : Layout} {t t' : Target}
    (hpages : l'.pages = l.pages) (ht : t ≠ .procedural) (ht' : t' ≠ .procedural)
    (hg : g.All (WidgetKind.Agrees R (settingOf o l t) (settingOf o l' t'))) :
    (compile g o l' t').diagnostics = (compile g o l t).diagnostics ∧
      (compile g o l' t').emitted = (compile g o l t).emitted ∧
      List.Forall₂ (PageProgress.Agrees R) (compilePages g (settingOf o l t) 0 l.pages {}).1
        (compilePages g (settingOf o l' t') 0 l'.pages {}).1 ∧
      resourcesOf g o l' t' = resourcesOf g o l t := by
  obtain ⟨hrun, hafter⟩ := compilePages_alongside hR hg 0 l.pages {}
  have hwidgets : l'.widgets = l.widgets := by rw [Layout.widgets, hpages, Layout.widgets]
  have hresolved := resolveKinds_alongside hg l.widgets (kindsOf l.widgets)
    (compilePages g (settingOf o l t) 0 l.pages {}).2
  refine ⟨?_, ?_, ?_, ?_⟩
  · change (compilePages g (settingOf o l' t') 0 l'.pages {}).1.flatMap _ ++ (resolveKinds g (settingOf o l' t')
      l'.widgets (kindsOf l'.widgets) (compilePages g (settingOf o l' t') 0 l'.pages {}).2).1 = _
    rw [hpages, hwidgets, hafter, PageProgress.flatMap_diagnostics hrun, hresolved]
    rfl
  · rw [emitted_compile, emitted_compile, hpages, PageProgress.map_emitted hrun]
  · rw [hpages]
    exact hrun
  · unfold resourcesOf registerConditions
    have hs : (settingOf o l t).target ≠ .procedural := ht
    have hs' : (settingOf o l' t').target ≠ .procedural := ht'
    simp only [if_neg hs, if_neg hs', hpages, hwidgets, hafter, hresolved]

end Registry

end Dashboard
