import Dashboard.Proofs.Compile.Run
/-!
# Skipped widgets leave no trace

A widget that is not emitted, because its kind is unknown, does not serve the target or fails,
contributes nothing: the layout without such widgets compiles to the same document. This holds for
kinds that nobody has seen yet. They may register fonts, colors and graphs before they fail, and
what they answer may depend on what was registered before.
-/

namespace Dashboard

open Emission Number

namespace PageProgress

/-- What a document takes over from a page. -/
def shown (p : PageProgress) : PageProgress :=
  { p with page := { p.page with widgets := [] }, progress := { p.progress with diagnostics := [] } }

end PageProgress

namespace Registry

/-- The widgets of a stretch that a compile emits, given what was registered before. -/
def emittedWidgets (g : Registry) (s : Setting) (page : Nat) : List Widget → Resources → List Widget
  | [], _ => []
  | w :: ws, r =>
    let (first, after) := compileWidget g s page w r
    if first.emitted = 0 then emittedWidgets g s page ws after
    else w :: emittedWidgets g s page ws after

def emittedPages (g : Registry) (s : Setting) : Nat → List Page → Resources → List Page
  | _, [], _ => []
  | index, p :: ps, r =>
    { p with widgets := emittedWidgets g s index p.widgets r } ::
      emittedPages g s (index + 1) ps (compileWidgets g s index p.widgets r).2

/-- A layout without the widgets that a compile leaves out. -/
def emittedLayout (g : Registry) (o : Options) (l : Layout) (t : Target) : Layout :=
  { l with pages := emittedPages g (settingOf o l t) 0 l.pages {} }

/-- A widget is either left out, and then it puts nothing on its page and registers nothing, or
emitted, and then it gives no diagnostics. -/
theorem compileWidget_cases (g : Registry) (s : Setting) (page : Nat) (w : Widget) (r : Resources) :
    (∃ ds, compileWidget g s page w r = ({ diagnostics := ds }, r)) ∨
      ∃ c after, compileWidget g s page w r = ({ content := c, emitted := 1 }, after) := by
  rcases hk : g.kind? w.kind with _ | k
  · exact .inl ⟨_, compileWidget_unknown hk page⟩
  cases hs : k.serves s.target with
  | false => exact .inl ⟨_, compileWidget_unserved hk hs page⟩
  | true =>
    rcases he : runWith (k.emit s w) r with ⟨e | c, after⟩
    · exact .inl ⟨_, compileWidget_failed hk hs he page⟩
    · exact .inr ⟨c, after, compileWidget_emitted hk hs he page⟩

variable (g : Registry) (s : Setting)

theorem compileWidgets_emittedWidgets (page : Nat) (ws : List Widget) (r : Resources) :
    compileWidgets g s page (emittedWidgets g s page ws r) r =
      ({ (compileWidgets g s page ws r).1 with diagnostics := [] },
        (compileWidgets g s page ws r).2) := by
  induction ws generalizing r with
  | nil => rfl
  | cons w ws ih =>
    rw [emittedWidgets, compileWidgets_cons]
    rcases compileWidget_cases g s page w r with ⟨ds, hw⟩ | ⟨c, after, hw⟩
    · simp only [hw, if_true]
      rw [ih r]
      change _ = (({ content := Content.append {} _, diagnostics := [], emitted := 0 + _ } : Progress), _)
      simp [Content.append]
    · simp only [hw, if_neg Nat.one_ne_zero]
      rw [compileWidgets_cons, hw, ih after]
      rfl

theorem compilePages_emittedPages (index : Nat) (ps : List Page) (r : Resources) :
    let kept := compilePages g s index (emittedPages g s index ps r) r
    let run := compilePages g s index ps r
    kept.1.map PageProgress.shown = run.1.map PageProgress.shown ∧ kept.2 = run.2 ∧
      ∀ p ∈ kept.1, p.progress.diagnostics = [] := by
  induction ps generalizing index r with
  | nil => exact ⟨rfl, rfl, fun p hp => absurd hp List.not_mem_nil⟩
  | cons p ps ih =>
    obtain ⟨hshown, hresources, hclean⟩ := ih (index + 1) (compileWidgets g s index p.widgets r).2
    simp only [emittedPages, compilePages_cons, compileWidgets_emittedWidgets]
    refine ⟨?_, hresources, ?_⟩
    · rw [List.map_cons, List.map_cons, hshown]
      rfl
    · intro q hq
      rcases List.mem_cons.mp hq with rfl | hq
      · rfl
      · exact hclean q hq

theorem output_shown (pages : List PageProgress) (r : Resources) :
    output s (pages.map PageProgress.shown) r = output s pages r := by
  unfold output
  cases s.target <;> simp only [List.map_map] <;> rfl

/-- Without entity sections a document depends on its resources by fonts, colors and graphs only. -/
theorem output_triggers {s : Setting} (hs : s.options.emitSensors = false)
    (pages : List PageProgress) (r : Resources) (triggers : Triggers) :
    output s pages { r with triggers } = output s pages r := by
  have h : sensorsOf s { r with triggers } = sensorsOf s r := by simp [sensorsOf, hs]
  unfold output
  rw [h]

section compile

variable {g : Registry} {o : Options} (l : Layout) (t : Target)

theorem output_emittedLayout (hg : g.All WidgetKind.ResolvesTriggersOnly)
    (ho : o.emitSensors = false) :
    (compile g o (emittedLayout g o l t) t).output = (compile g o l t).output := by
  obtain ⟨hshown, hresources, -⟩ := compilePages_emittedPages g (settingOf o l t) 0 l.pages {}
  obtain ⟨u, hu⟩ := resourcesOf_triggers hg o l t
  obtain ⟨v, hv⟩ := resourcesOf_triggers hg o (emittedLayout g o l t) t
  rw [output_compile, output_compile, hu, hv]
  rw [output_triggers (s := settingOf o (emittedLayout g o l t) t) ho,
    output_triggers (s := settingOf o l t) ho]
  change output (settingOf o l t) (compilePages g (settingOf o l t) 0 _ {}).1
    (compilePages g (settingOf o l t) 0 _ {}).2 = _
  rw [emittedLayout, ← output_shown, hshown, hresources, output_shown]

theorem diagnostics_emittedLayout (hg : g.All WidgetKind.ResolvesTriggersOnly) :
    (compile g o (emittedLayout g o l t) t).diagnostics = [] := by
  obtain ⟨-, -, hclean⟩ := compilePages_emittedPages g (settingOf o l t) 0 l.pages {}
  rw [diagnostics_compile hg]
  exact List.flatMap_eq_nil_iff.mpr hclean

theorem emitted_emittedLayout :
    (compile g o (emittedLayout g o l t) t).emitted = (compile g o l t).emitted := by
  obtain ⟨hshown, -, -⟩ := compilePages_emittedPages g (settingOf o l t) 0 l.pages {}
  have hmap : ∀ ps : List PageProgress, ps.map (fun p => p.progress.emitted) =
      (ps.map PageProgress.shown).map fun p => p.progress.emitted := fun ps => by
    rw [List.map_map]
    rfl
  rw [emitted_compile, emitted_compile]
  refine congrArg Number.total ((hmap _).trans (Eq.trans ?_ (hmap _).symm))
  exact congrArg (List.map fun p : PageProgress => p.progress.emitted) hshown

end compile

/-- A skipped widget leaves no trace. Over the built-in kinds and any others that do not resolve
entities, the layout without the widgets that a compile left out compiles to the same document,
without a diagnostic and with as many emitted widgets. -/
theorem compile_emittedLayout {ks : List WidgetKind}
    (hks : ∀ k ∈ ks, k ∈ Kind.builtin ∨ k.ResolvesNothing) {o : Options}
    (ho : o.emitSensors = false) (l : Layout) (t : Target) :
    let report := compile (ofKinds ks) o l t
    let kept := compile (ofKinds ks) o (emittedLayout (ofKinds ks) o l t) t
    kept.output = report.output ∧ kept.diagnostics = [] ∧ kept.emitted = report.emitted := by
  have hg : (ofKinds ks).All WidgetKind.ResolvesTriggersOnly := by
    refine all_ofKinds fun k hk => ?_
    rcases hks k hk with hbuiltin | hnothing
    · exact WidgetKind.resolvesTriggersOnly_of_builtin hbuiltin
    · exact hnothing.triggersOnly
  exact ⟨output_emittedLayout l t hg ho, diagnostics_emittedLayout l t hg,
    emitted_emittedLayout l t⟩

/-- A kind that registers a font for every widget and then fails. -/
def unreliableKind : WidgetKind where
  descriptor :=
    { id := "gauge", name := "Gauge", category := "Other", targets := [.procedural]
      capabilities := [.collectResources, .exportProcedural], defaults := [] }
  typed _ := .ok []
  collect _ _ := do
    let _ ← Emission.register (Resources.addFont (.make "Roboto" 400 12 false))
  procedural _ w := Emission.ofExcept (.error (.missingEntity w.id))

def unreliableLayout : Layout :=
  { pages := [{ id := "page_0", name := "Page 1", widgets :=
      [.make "a" "gauge", .make "b" "shape_rect", .make "c" "clockwork", .make "d" "lvgl_label"] }] }

theorem compile_emittedLayout_unreliable :
    let g := ofKinds (unreliableKind :: Kind.builtin)
    let o : Options := { emitSensors := false }
    let kept := emittedLayout g o unreliableLayout .procedural
    kept.widgets.map Widget.id = ["b"] ∧
      (compile g o kept .procedural).output = (compile g o unreliableLayout .procedural).output ∧
      (compile g o kept .procedural).diagnostics = [] ∧
      (compile g o kept .procedural).emitted = (compile g o unreliableLayout .procedural).emitted := by
  refine ⟨by decide +kernel, compile_emittedLayout ?_ rfl unreliableLayout .procedural⟩
  intro k hk
  rcases List.mem_cons.mp hk with rfl | hk
  · exact .inr (.inl rfl)
  · exact .inl hk

end Registry

end Dashboard
