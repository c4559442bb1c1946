import Dashboard.Proofs.Compile.Kinds
/-!
# The steps of a compile

What one widget does to a compile, case by case: its kind is unknown, its kind does not serve the
target, it fails, or it is emitted. In the first three cases the resources stay as they were.
Resolving entities gives no diagnostics and changes the triggers only, if every kind resolves so.
-/

namespace Dashboard.Registry

open Emission

/-- Every kind that a registry can find has a property. -/
def All (P : WidgetKind → Prop) (g : Registry) : Prop := ∀ id k, g.kind? id = some k → P k

theorem All.register {P : WidgetKind → Prop} {g : Registry} (hg : g.All P) {k : WidgetKind}
    (hk : P k) : (g.register k).All P := by
  intro id k' h
  by_cases hid : id = k.id
  · subst hid
    rw [kind?, Registry.register, Table.find?_put_self] at h
    exact Option.some.inj h ▸ hk
  · rw [kind?, Registry.register, Table.find?_put_of_ne k g hid] at h
    exact hg id k' h

theorem all_ofKinds {P : WidgetKind → Prop} {ks : List WidgetKind} (h : ∀ k ∈ ks, P k) :
    (ofKinds ks).All P := by
  suffices ∀ g : Registry, g.All P → (ks.foldl (fun r k => register k r) g).All P from
    this [] fun _ _ hk => absurd hk (by simp [kind?, Table.find?])
  induction ks with
  | nil => exact fun g hg => hg
  | cons k ks ih =>
    intro g hg
    exact ih (fun k' hk' => h k' (List.mem_cons_of_mem k hk')) _ (hg.register (h k List.mem_cons_self))

variable {g : Registry} {s : Setting} {w : Widget} {r after : Resources} {k : WidgetKind}

theorem compileWidget_unknown (hk : g.kind? w.kind = none) (page : Nat) :
    compileWidget g s page w r = ({ diagnostics := [.unknownKind page w.id w.kind] }, r) := by
  rw [compileWidget, hk]

theorem compileWidget_unserved (hk : g.kind? w.kind = some k) (hs : k.serves s.target = false)
    (page : Nat) : compileWidget g s page w r = ({}, r) := by
  rw [compileWidget, hk]
  simp [hs]

theorem compileWidget_failed (hk : g.kind? w.kind = some k) (hs : k.serves s.target = true)
    {e : ExportError} (he : runWith (k.emit s w) r = (.error e, after)) (page : Nat) :
    compileWidget g s page w r =
      ({ diagnostics := [.widgetFailed page w.id w.kind e.message] }, r) := by
  rw [compileWidget, hk]
  simp [hs, he]

theorem compileWidget_emitted (hk : g.kind? w.kind = some k) (hs : k.serves s.target = true)
    {c : Content} (he : runWith (k.emit s w) r = (.ok c, after)) (page : Nat) :
    compileWidget g s page w r = ({ content := c, emitted := 1 }, after) := by
  rw [compileWidget, hk]
  simp [hs, he]

theorem compileWidgets_cons (page : Nat) (ws : List Widget) :
    compileWidgets g s page (w :: ws) r =
      ((compileWidget g s page w r).1 ++ (compileWidgets g s page ws (compileWidget g s page w r).2).1,
        (compileWidgets g s page ws (compileWidget g s page w r).2).2) := rfl

theorem compilePages_cons (index : Nat) (p : Page) (ps : List Page) :
    compilePages g s index (p :: ps) r =
      (⟨index, p, (compileWidgets g s index p.widgets r).1⟩ ::
        (compilePages g s (index + 1) ps (compileWidgets g s index p.widgets r).2).1,
        (compilePages g s (index + 1) ps (compileWidgets g s index p.widgets r).2).2) := rfl

theorem resolveKind_triggers (hg : g.All WidgetKind.ResolvesTriggersOnly) (s : Setting)
    (ws : List Widget) (kind : String) (r : Resources) :
    ∃ triggers, resolveKind g s ws kind r = ([], { r with triggers }) := by
  unfold resolveKind
  cases hk : g.kind? kind with
  | none => exact ⟨r.triggers, rfl⟩
  | some k =>
    by_cases hs : (k.descriptor.supports .resolveEntities &&
        k.descriptor.supportsTarget s.target) = true
    · obtain ⟨t, ht⟩ := hg kind k hk (Bool.and_eq_true_iff.mp hs).1 s
        (ws.filter fun w => w.kind == kind) r
      exact ⟨t, by simp only [if_pos hs, ht]⟩
    · exact ⟨r.triggers, by simp only [if_neg hs]⟩

theorem resolveKinds_triggers (hg : g.All WidgetKind.ResolvesTriggersOnly) (s : Setting)
    (ws : List Widget) (kinds : List String) (r : Resources) :
    ∃ triggers, resolveKinds g s ws kinds r = ([], { r with triggers }) := by
  induction kinds generalizing r with
  | nil => exact ⟨r.triggers, rfl⟩
  | cons kind kinds ih =>
    obtain ⟨t, ht⟩ := resolveKind_triggers hg s ws kind r
    obtain ⟨t', ht'⟩ := ih { r with triggers := t }
    exact ⟨t', by rw [resolveKinds, ht]; simp only [ht', List.append_nil]⟩

theorem registerConditions_triggers (s : Setting) (ws : List Widget) (r : Resources) :
    ∃ triggers, registerConditions s ws r = { r with triggers } := by
  unfold registerConditions
  split
  · exact Kind.foldl_triggers (fun r w => Kind.registerEntity_triggers s w.id _ r) ws r
  · exact ⟨r.triggers, rfl⟩

/-- What is fixed while a layout is compiled. -/
def settingOf (o : Options) (l : Layout) (t : Target) : Setting :=
  { target := t, dark := l.settings.darkMode, options := o }

/-- The resources of a document, with the entities of the widgets and of the guards. -/
def resourcesOf (g : Registry) (o : Options) (l : Layout) (t : Target) : Resources :=
  let s := settingOf o l t
  registerConditions s l.widgets
    (resolveKinds g s l.widgets (kindsOf l.widgets) (compilePages g s 0 l.pages {}).2).2

theorem output_compile (o : Options) (l : Layout) (t : Target) :
    (compile g o l t).output =
      output (settingOf o l t) (compilePages g (settingOf o l t) 0 l.pages {}).1
        (resourcesOf g o l t) := rfl

theorem emitted_compile (o : Options) (l : Layout) (t : Target) :
    (compile g o l t).emitted = Number.total
      ((compilePages g (settingOf o l t) 0 l.pages {}).1.map fun p => p.progress.emitted) := rfl

theorem diagnostics_compile (hg : g.All WidgetKind.ResolvesTriggersOnly) (o : Options) (l : Layout)
    (t : Target) :
    (compile g o l t).diagnostics =
      (compilePages g (settingOf o l t) 0 l.pages {}).1.flatMap fun p => p.progress.diagnostics := by
  obtain ⟨u, hu⟩ := resolveKinds_triggers hg (settingOf o l t) l.widgets (kindsOf l.widgets)
    (compilePages g (settingOf o l t) 0 l.pages {}).2
  have h : (compile g o l t).diagnostics =
      ((compilePages g (settingOf o l t) 0 l.pages {}).1.flatMap fun p => p.progress.diagnostics) ++
        (resolveKinds g (settingOf o l t) l.widgets (kindsOf l.widgets)
          (compilePages g (settingOf o l t) 0 l.pages {}).2).1 := rfl
  rw [h, hu, List.append_nil]

theorem resourcesOf_triggers (hg : g.All WidgetKind.ResolvesTriggersOnly) (o : Options) (l : Layout)
    (t : Target) : ∃ triggers,
      resourcesOf g o l t = { (compilePages g (settingOf o l t) 0 l.pages {}).2 with triggers } := by
  obtain ⟨u, hu⟩ := resolveKinds_triggers hg (settingOf o l t) l.widgets (kindsOf l.widgets)
    (compilePages g (settingOf o l t) 0 l.pages {}).2
  obtain ⟨v, hv⟩ := registerConditions_triggers (settingOf o l t) l.widgets
    { (compilePages g (settingOf o l t) 0 l.pages {}).2 with triggers := u }
  exact ⟨v, by rw [resourcesOf, hu, hv]⟩

end Dashboard.Registry
