import Mathlib.Algebra.Order.BigOperators.Group.List
import Mathlib.Algebra.Order.Group.Nat
import Dashboard.Proofs.Compile.Blocks
import Dashboard.Proofs.Compile.Composition
import Dashboard.Proofs.Kind.Arithmetic
/-!
# Compiling over an arithmetic

A compile computes with the pixels of its widgets. Its report is told here over any arithmetic of pixels. The report
is the same over all arithmetics that are exact as long as their results are pixels, if and only if no widget of the
layout takes another result: over a checked arithmetic such a widget is left out.
-/

namespace Dashboard

open Emission Number

namespace Registry

/-! ## Two registries -/

section congr

variable {g g' : Registry} {s : Setting}

theorem compileWidgets_eq {ws : List Widget}
    (h : ∀ w ∈ ws, ∀ page r, compileWidget g' s page w r = compileWidget g s page w r) (page : Nat) (r : Resources) :
    compileWidgets g' s page ws r = compileWidgets g s page ws r := by
  induction ws generalizing r with
  | nil => rfl
  | cons w ws ih =>
    rw [compileWidgets_cons, compileWidgets_cons, h w List.mem_cons_self,
      ih fun w hw => h w (List.mem_cons_of_mem _ hw)]

theorem compilePages_eq {ps : List Page}
    (h : ∀ p ∈ ps, ∀ w ∈ p.widgets, ∀ page r, compileWidget g' s page w r = compileWidget g s page w r) (index : Nat)
    (r : Resources) : compilePages g' s index ps r = compilePages g s index ps r := by
  induction ps generalizing index r with
  | nil => rfl
  | cons p ps ih =>
    rw [compilePages_cons, compilePages_cons, compileWidgets_eq (h p List.mem_cons_self),
      ih fun p hp => h p (List.mem_cons_of_mem _ hp)]

theorem resolveKinds_eq (h : ∀ ws kind r, resolveKind g' s ws kind r = resolveKind g s ws kind r) (ws : List Widget)
    (kinds : List String) (r : Resources) : resolveKinds g' s ws kinds r = resolveKinds g s ws kinds r := by
  induction kinds generalizing r with
  | nil => rfl
  | cons kind kinds ih => simp only [resolveKinds, h, ih]

/-- Two registries give the same report if they give the same for each widget and for each kind. -/
theorem compile_eq {o : Options} {l : Layout} {t : Target}
    (hwidget : ∀ w ∈ l.widgets, ∀ page r,
      compileWidget g' (settingOf o l t) page w r = compileWidget g (settingOf o l t) page w r)
    (hkind : ∀ ws kind r,
      resolveKind g' (settingOf o l t) ws kind r = resolveKind g (settingOf o l t) ws kind r) :
    compile g' o l t = compile g o l t := by
  have hpages := compilePages_eq (fun p hp w hw => hwidget w (List.mem_flatMap.mpr ⟨p, hp, hw⟩)) 0 {}
  unfold settingOf at hpages hkind
  simp only [compile, hpages, resolveKinds_eq hkind]

end congr

/-! ## A registry over an arithmetic -/

/-- A registry of kinds whose exports compute with an arithmetic. -/
def overArithmetic (a : Arithmetic) (g : Registry) : Registry := g.map fun e => (e.1, Kind.overArithmetic a e.2)

theorem kind?_over (a : Arithmetic) (g : Registry) (id : String) :
    (g.overArithmetic a).kind? id = (g.kind? id).map (Kind.overArithmetic a) := by
  unfold kind? overArithmetic Table.find?
  induction g with
  | nil => rfl
  | cons e g ih =>
    rw [List.map_cons, List.lookup_cons, List.lookup_cons]
    cases id == e.1
    · exact ih
    · rfl

theorem All.overArithmetic {P : WidgetKind → Prop} {g : Registry} {a : Arithmetic} (hg : g.All P)
    (h : ∀ k, P k → P (Kind.overArithmetic a k)) : (g.overArithmetic a).All P := by
  intro id k hk
  rw [kind?_over] at hk
  obtain ⟨k', hk', rfl⟩ := Option.map_eq_some_iff.mp hk
  exact h k' (hg id k' hk')

theorem kind?_builtin {k : WidgetKind} (hk : k ∈ Kind.builtin) : builtin.kind? k.id = some k := by
  simp only [Kind.builtin, List.mem_cons, List.not_mem_nil, or_false] at hk
  rcases hk with rfl | rfl | rfl | rfl | rfl | rfl | rfl | rfl | rfl <;> rfl

/-- The compile itself wraps around. -/
theorem over_wrapping : builtin.overArithmetic .wrapping = builtin := by
  have hmem : ∀ e ∈ builtin, e.2 ∈ Kind.builtin := by
    intro e he
    have hentries : e ∈ Kind.builtin.map fun k => (k.id, k) := Table.mem_ofList he
    obtain ⟨k, hk, rfl⟩ := List.mem_map.mp hentries
    exact hk
  calc builtin.overArithmetic .wrapping = builtin.map id :=
        List.map_congr_left fun e he => by rw [Kind.over_wrapping (hmem e he), id]
    _ = builtin := List.map_id _

variable {a : Arithmetic} {s : Setting} {w : Widget}

theorem resolveKind_over (g : Registry) (ws : List Widget) (kind : String) (r : Resources) :
    resolveKind (g.overArithmetic a) s ws kind r = resolveKind g s ws kind r := by
  unfold resolveKind
  rw [kind?_over]
  cases g.kind? kind <;> rfl

theorem compileWidget_over (ha : a.IsExact) (h : w.StaysInRange s.target) (page : Nat) (r : Resources) :
    compileWidget (builtin.overArithmetic a) s page w r = compileWidget builtin s page w r := by
  unfold compileWidget
  rw [kind?_over]
  cases hk : builtin.kind? w.kind with
  | none => rfl
  | some k =>
    obtain ⟨hmem, hid⟩ := kind?_ofKinds hk
    rw [Option.map_some]
    simp only [Kind.emit_over ha hmem hid h]
    rfl

/-- A widget that takes another result than pixels is left out over a checked arithmetic only. -/
theorem emitted_over_checked (h : ¬ w.StaysInRange s.target) :
    (compileWidget (builtin.overArithmetic .checked) s 0 w {}).1.emitted = 0 ∧
      (compileWidget builtin s 0 w {}).1.emitted = 1 := by
  obtain ⟨i, hi, -⟩ : ∃ i ∈ w.results s.target, ¬ Pixel.InRange i := by
    unfold Widget.StaysInRange at h
    push Not at h
    exact h
  obtain ⟨k, hmem, hid, hserves, hgives⟩ := Kind.exists_gives_of_mem_results hi
  obtain ⟨c, after, hrun, -⟩ := hgives {}
  have hk : builtin.kind? w.kind = some k := hid ▸ kind?_builtin hmem
  have hover : (builtin.overArithmetic .checked).kind? w.kind = some (Kind.overArithmetic .checked k) := by
    rw [kind?_over, hk]
    rfl
  refine ⟨?_, by rw [compileWidget_emitted hk hserves hrun]⟩
  rcases hrun' : runWith ((Kind.overArithmetic .checked k).emit s w) {} with ⟨e | c', after'⟩
  · rw [compileWidget_failed hover hserves hrun']
  · exact absurd (Kind.staysInRange_of_emit_over hmem hid hrun') h

/-- A report that is the same over a checked arithmetic is one of a layout that takes pixels only. -/
theorem staysInRange_of_compile {o : Options} {l : Layout} {t : Target}
    (h : compile (builtin.overArithmetic .checked) o l t = compile builtin o l t) :
    ∀ w ∈ l.widgets, w.StaysInRange t := by
  have hoblivious : builtin.All WidgetKind.IsOblivious :=
    all_ofKinds fun _ hk => WidgetKind.isOblivious_of_builtin hk
  have hresolves : builtin.All WidgetKind.ResolvesTriggersOnly :=
    all_ofKinds fun _ hk => WidgetKind.resolvesTriggersOnly_of_builtin hk
  have hcount : ∀ {g : Registry}, g.All WidgetKind.IsOblivious → g.All WidgetKind.ResolvesTriggersOnly →
      (compile g o l t).emitted =
        (l.widgets.map fun w => (compileWidget g (settingOf o l t) 0 w {}).1.emitted).sum := by
    intro g hg hr
    rw [emitted_compile_solo hg hr]
    refine congrArg List.sum (List.map_congr_left fun w _ => ?_)
    exact (compile_solo hr o l.settings w t).2.1
  intro w hw
  by_contra hout
  have hlt := List.sum_lt_sum (l := l.widgets)
    (fun w => (compileWidget (builtin.overArithmetic .checked) (settingOf o l t) 0 w {}).1.emitted)
    (fun w => (compileWidget builtin (settingOf o l t) 0 w {}).1.emitted) (fun w' _ => ?_) ⟨w, hw, ?_⟩
  · rw [← hcount hoblivious hresolves, ← hcount (hoblivious.overArithmetic fun _ hk => Kind.isOblivious_over hk _)
      (hresolves.overArithmetic fun _ hk => hk), h] at hlt
    exact absurd hlt (Nat.lt_irrefl _)
  · by_cases hin : w'.StaysInRange t
    · rw [compileWidget_over Arithmetic.isExact_checked hin]
    · rw [(emitted_over_checked hin).1]
      exact Nat.zero_le _
  · rw [(emitted_over_checked hout).1, (emitted_over_checked hout).2]
    exact Nat.zero_lt_one

/-- A chart at the right end of the pixel range, whose title would have to stand beyond it. -/
def edgeChart : Widget :=
  { Widget.make "power" "chart" with
    x := .ofInt 2147483647, entityId := some "sensor.power", title := some "Power" }

end Registry

end Dashboard
