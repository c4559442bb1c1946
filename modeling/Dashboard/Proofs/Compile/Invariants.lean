import Dashboard.Proofs.Compile.Registered
import Dashboard.Proofs.Compile.Run
/-!
# Invariants of emission

A property of the resources that every emitted widget keeps holds after all pages. A widget that fails
leaves the resources as they were, and it puts nothing on its page, so nothing has to be known of it.
-/

namespace Dashboard

open Emission

/-- A property of contents that the parts of a page hand on to the page. -/
structure Content.IsGathered (Q : Content → Prop) : Prop where
  empty : Q {}
  append : ∀ {a b}, Q a → Q b → Q (a ++ b)

theorem Content.isGathered_true : IsGathered fun _ => True := ⟨trivial, fun _ _ => trivial⟩

namespace WidgetKind

variable {k : WidgetKind} {s : Setting} {w : Widget} {I : Resources → Prop}

theorem yields_collectFor (h : Yields I (fun _ => True) (k.collect s w)) :
    Yields I (fun _ => True) (k.collectFor s w) := by
  unfold collectFor
  split
  · exact h
  · exact .pure trivial

theorem yields_emit_procedural (hs : s.target = .procedural) {Q : List String → Prop}
    (hcollect : Yields I (fun _ => True) (k.collect s w)) (hdraws : Yields I Q (k.procedural s w)) :
    Yields I (fun c => Q c.statements) (k.emit s w) := by
  refine (yields_collectFor hcollect).bind fun _ _ => ?_
  unfold content
  rw [hs]
  exact hdraws.bind fun _ hls => .pure hls

theorem yields_emit_retained (hs : s.target = .retained) {Q : List RetainedNode → Prop}
    (hcollect : Yields I (fun _ => True) (k.collect s w))
    (hnodes : ∀ r ns, k.retained s r w = .ok ns → Q ns) : Yields I (fun c => Q c.nodes) (k.emit s w) := by
  refine (yields_collectFor hcollect).bind fun _ _ => ?_
  unfold content
  rw [hs]
  intro r hr c after h
  obtain ⟨r', middle, hget, h⟩ := ok_of_bind h
  cases hget
  obtain ⟨ns, middle, hns, hc⟩ := ok_of_bind h
  obtain ⟨hns, rfl⟩ := ok_of_ofExcept hns
  cases hc
  exact ⟨hnodes _ ns hns, hr⟩

end WidgetKind

/-- If a widget is emitted, its content is as described, and it keeps a property of the resources. -/
def Widget.Yields (g : Registry) (s : Setting) (I : Resources → Prop) (Q : Content → Prop) (w : Widget) : Prop :=
  ∀ k, g.kind? w.kind = some k → k.serves s.target = true → Emission.Yields I Q (k.emit s w)

namespace Registry

variable {g : Registry} {s : Setting} {I : Resources → Prop} {Q : Content → Prop} {r : Resources}

theorem compileWidget_yields (hQ : Content.IsGathered Q) {w : Widget} (h : w.Yields g s I Q) (page : Nat)
    (hr : I r) : Q (compileWidget g s page w r).1.content ∧ I (compileWidget g s page w r).2 := by
  rcases hk : g.kind? w.kind with _ | k
  · rw [compileWidget_unknown hk]
    exact ⟨hQ.empty, hr⟩
  cases hserves : k.serves s.target with
  | false =>
    rw [compileWidget_unserved hk hserves]
    exact ⟨hQ.empty, hr⟩
  | true =>
    rcases he : runWith (k.emit s w) r with ⟨e | c, after⟩
    · rw [compileWidget_failed hk hserves he]
      exact ⟨hQ.empty, hr⟩
    · rw [compileWidget_emitted hk hserves he]
      exact h k hk hserves r hr c after he

theorem compileWidgets_yields (hQ : Content.IsGathered Q) {ws : List Widget} (h : ∀ w ∈ ws, w.Yields g s I Q)
    (page : Nat) (hr : I r) :
    Q (compileWidgets g s page ws r).1.content ∧ I (compileWidgets g s page ws r).2 := by
  induction ws generalizing r with
  | nil => exact ⟨hQ.empty, hr⟩
  | cons w ws ih =>
    rw [compileWidgets_cons]
    obtain ⟨hcontent, hafter⟩ := compileWidget_yields hQ (h w List.mem_cons_self) page hr
    obtain ⟨hothers, hlast⟩ := ih (fun w' hw' => h w' (List.mem_cons_of_mem w hw')) hafter
    exact ⟨hQ.append hcontent hothers, hlast⟩

theorem compilePages_yields (hQ : Content.IsGathered Q) {ps : List Page}
    (h : ∀ p ∈ ps, ∀ w ∈ p.widgets, w.Yields g s I Q) (index : Nat) (hr : I r) :
    (∀ p ∈ (compilePages g s index ps r).1, Q p.progress.content) ∧ I (compilePages g s index ps r).2 := by
  induction ps generalizing index r with
  | nil => exact ⟨fun _ hp => absurd hp List.not_mem_nil, hr⟩
  | cons p ps ih =>
    rw [compilePages_cons]
    obtain ⟨hcontent, hafter⟩ := compileWidgets_yields hQ (h p List.mem_cons_self) index hr
    obtain ⟨hothers, hlast⟩ := ih (fun p' hp' => h p' (List.mem_cons_of_mem p hp')) (index + 1) hafter
    exact ⟨List.forall_mem_cons.mpr ⟨hcontent, hothers⟩, hlast⟩

/-! ## What one widget brings about -/

theorem compileWidgets_reaches {ws : List Widget} (hkeep : ∀ w ∈ ws, w.Yields g s I fun _ => True) {w : Widget}
    (hw : w ∈ ws) (page : Nat) (h : ∀ r, I (compileWidget g s page w r).2) (r : Resources) :
    I (compileWidgets g s page ws r).2 := by
  induction ws generalizing r with
  | nil => exact absurd hw List.not_mem_nil
  | cons w' ws ih =>
    have hrest : ∀ v ∈ ws, v.Yields g s I fun _ => True := fun v hv => hkeep v (List.mem_cons_of_mem w' hv)
    rw [compileWidgets_cons]
    rcases List.mem_cons.mp hw with rfl | hw
    · exact (compileWidgets_yields Content.isGathered_true hrest page (h r)).2
    · exact ih hrest hw _

/-- A property that one widget brings about, whatever was registered before, and that all widgets keep. -/
theorem compilePages_reaches {ps : List Page} (hkeep : ∀ p ∈ ps, ∀ w ∈ p.widgets, w.Yields g s I fun _ => True)
    {p : Page} (hp : p ∈ ps) {w : Widget} (hw : w ∈ p.widgets)
    (h : ∀ page r, I (compileWidget g s page w r).2) (index : Nat) (r : Resources) :
    I (compilePages g s index ps r).2 := by
  induction ps generalizing index r with
  | nil => exact absurd hp List.not_mem_nil
  | cons p' ps ih =>
    have hrest : ∀ q ∈ ps, ∀ w ∈ q.widgets, w.Yields g s I fun _ => True := fun q hq =>
      hkeep q (List.mem_cons_of_mem p' hq)
    rw [compilePages_cons]
    rcases List.mem_cons.mp hp with rfl | hp
    · exact (compilePages_yields Content.isGathered_true hrest (index + 1)
        (compileWidgets_reaches (hkeep p List.mem_cons_self) hw index (h index) r)).2
    · exact ih hrest hp (index + 1) _

end Registry

end Dashboard
