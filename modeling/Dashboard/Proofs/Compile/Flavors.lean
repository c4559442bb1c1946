import Dashboard.Proofs.Compile.Alongside
import Dashboard.Proofs.Compile.Blocks
import Dashboard.Proofs.Compile.Composition
/-!
# The two remote renderers are told the same

One of the two renderers wraps texts and is told how, the other is told of each box that it is visible. But
for these fields a layout gives both the same instructions, and what fails for one of them fails for the
other. Neither has entities to declare.
-/

namespace Dashboard

open Emission

namespace Instruction

/-- An instruction without the fields that only one of the renderers is told. -/
def erased : Instruction → Instruction
  | .text d => .text { d with align := none, maxWidth := none, spacing := none }
  | .circle d => .circle d
  | .rectangle d => .rectangle { d with visible := none }
  | .ellipse d => .ellipse { d with visible := none }
  | .line d => .line d

/-- Lists of instructions that are equal element by element once they are erased. -/
def EqErased (is js : List Instruction) : Prop := js.map erased = is.map erased

end Instruction

namespace DeclarativePage

def erased (p : DeclarativePage) : DeclarativePage := { p with instructions := p.instructions.map .erased }

end DeclarativePage

namespace Content

/-- Contents that give the same instructions to both renderers. -/
def EqErased (a b : Content) : Prop := Instruction.EqErased a.instructions b.instructions

theorem isCongruence_eqErased : IsCongruence EqErased where
  empty := rfl
  append := by
    intro a b a' b' ha hb
    change (a'.instructions ++ b'.instructions).map _ = (a.instructions ++ b.instructions).map _
    rw [List.map_append, List.map_append, ha, hb]

end Content

/-! ## Settings -/

namespace Setting

/-- What is fixed for a compile to a remote renderer. -/
def remote (dark : Bool) (o : Options) (f : Flavor) : Setting where
  target := .declarative f
  dark := dark
  options := o

end Setting

namespace Kind

open Instruction

variable {dark : Bool} {o : Options}

/-- A remote renderer refreshes nothing. -/
theorem resolveWidgets_remote (f : Flavor) (ws : List Widget) :
    resolveWidgets (.remote dark o f) ws = modify id := by
  have hone : ∀ (id : String) (entity : Option String) (r : Resources),
      registerEntity (.remote dark o f) id entity r = r := by
    intro id entity r
    unfold registerEntity
    cases entity.bind Entity.normalize? with
    | none => rfl
    | some e => rfl
  have hall : ∀ (ws : List Widget) (r : Resources), ws.foldl (registerEntities (.remote dark o f)) r = r := by
    intro ws
    induction ws with
    | nil => exact fun _ => rfl
    | cons w ws ih =>
      intro r
      rw [List.foldl_cons, registerEntities, hone, hone, ih]
  exact congrArg modify (funext (hall ws))

/-- A kind that tells both renderers the same. -/
def TellsBoth (k : WidgetKind) : Prop :=
  ∀ dark o r w, Agree EqErased (k.declarative (.remote dark o .oepl) r .oepl w)
    (k.declarative (.remote dark o .openDisplay) r .openDisplay w)

theorem Clock.tellsBoth : TellsBoth Clock.kind := by
  intro dark o r w
  refine Agree.bind fun p => ?_
  cases p.format.secondaryPattern? with
  | none => exact rfl
  | some second => exact rfl

theorem TextBlock.tellsBoth : TellsBoth TextBlock.kind := fun _ _ _ _ => Agree.bind fun _ => rfl

theorem Rectangle.tellsBoth : TellsBoth Rectangle.kind := fun _ _ _ _ => Agree.bind fun _ => rfl

theorem Circle.tellsBoth : TellsBoth Circle.kind := fun _ _ _ _ => Agree.bind fun _ => rfl

theorem Line.tellsBoth : TellsBoth Line.kind := fun _ _ _ _ => Agree.bind fun _ => rfl

theorem Ellipse.tellsBoth : TellsBoth Ellipse.kind := fun _ _ _ _ => Agree.bind fun _ => rfl

theorem tellsBoth_of_builtin {k : WidgetKind} (hk : k ∈ builtin) : TellsBoth k := by
  simp only [builtin, List.mem_cons, List.not_mem_nil, or_false] at hk
  rcases hk with rfl | rfl | rfl | rfl | rfl | rfl | rfl | rfl | rfl
  · exact Clock.tellsBoth
  · exact TextBlock.tellsBoth
  · exact Rectangle.tellsBoth
  · exact Circle.tellsBoth
  · exact Line.tellsBoth
  · exact fun _ _ _ _ => rfl
  · exact fun _ _ _ _ => rfl
  · exact fun _ _ _ _ => rfl
  · exact Ellipse.tellsBoth

end Kind

namespace WidgetKind

variable {k : WidgetKind} {dark : Bool} {o : Options}

theorem collect_remote (hk : k ∈ Kind.builtin) (hserves : k.serves (.declarative .oepl) = true) (w : Widget) :
    k.collect (.remote dark o .openDisplay) w = k.collect (.remote dark o .oepl) w := by
  simp only [Kind.builtin, List.mem_cons, List.not_mem_nil, or_false] at hk
  rcases hk with rfl | rfl | rfl | rfl | rfl | rfl | rfl | rfl | rfl
  case inr.inr.inr.inr.inr.inl => exact absurd hserves (by decide)
  all_goals rfl

theorem agrees_remote (hk : k ∈ Kind.builtin) :
    k.Agrees Content.EqErased (.remote dark o .oepl) (.remote dark o .openDisplay) where
  target := by
    have hboth : ∀ k ∈ Kind.builtin, k.descriptor.supportsTarget (.declarative .openDisplay) =
        k.descriptor.supportsTarget (.declarative .oepl) := by decide
    exact hboth k hk
  serves := by
    have hboth : ∀ k ∈ Kind.builtin, k.serves (.declarative .openDisplay) = k.serves (.declarative .oepl) := by
      decide
    exact hboth k hk
  collect := fun w hserves => collect_remote hk hserves w
  content := by
    intro w _ r
    rw [runWith_content_declarative rfl, runWith_content_declarative rfl]
    exact ⟨(Kind.tellsBoth_of_builtin hk dark o r w).map fun _ _ h => h, rfl⟩
  resolve := by
    intro ws _
    rcases Kind.resolvesWidgets_of_builtin hk with hpure | hwidgets
    · rw [hpure]
    · rw [hwidgets, Kind.resolveWidgets_remote, Kind.resolveWidgets_remote]

end WidgetKind

namespace Registry

/-- Both remote renderers get the same diagnostics and the same pages, which show the same instructions but for
what only one of them is told. -/
theorem compile_flavors_agree (names : List String) (o : Options) (l : Layout) :
    let oepl := compile (ofNames names) o l (.declarative .oepl)
    let openDisplay := compile (ofNames names) o l (.declarative .openDisplay)
    openDisplay.diagnostics = oepl.diagnostics ∧ openDisplay.emitted = oepl.emitted ∧
      ∃ d e, oepl.output = .declarative d ∧ openDisplay.output = .declarative e ∧
        d.flavor = .oepl ∧ e.flavor = .openDisplay ∧
        e.pages.map DeclarativePage.erased = d.pages.map DeclarativePage.erased := by
  have hg : (ofNames names).All (WidgetKind.Agrees Content.EqErased (settingOf o l (.declarative .oepl))
      (settingOf o l (.declarative .openDisplay))) := all_ofNames (fun _ => WidgetKind.agrees_remote) names
  obtain ⟨hdiagnostics, hemitted, hpages, -⟩ :=
    compile_alongside Content.isCongruence_eqErased rfl Target.noConfusion Target.noConfusion hg
  refine ⟨hdiagnostics, hemitted, _, _, rfl, rfl, rfl, rfl, ?_⟩
  have hshown : ∀ {ps qs : List PageProgress}, List.Forall₂ (PageProgress.Agrees Content.EqErased) ps qs →
      (qs.map declarativePage).map DeclarativePage.erased = (ps.map declarativePage).map DeclarativePage.erased := by
    intro ps qs h
    induction h with
    | nil => rfl
    | @cons p q ps qs hp _ ih =>
      have hinstructions : q.progress.content.instructions.map _ = _ := hp.progress.content
      simp only [List.map_cons, ih]
      rw [DeclarativePage.erased, DeclarativePage.erased, declarativePage, declarativePage, hp.index, hp.page]
      simp only [hinstructions]
  exact hshown hpages

end Registry

end Dashboard
