import Dashboard.Proofs.Compile.Emission
import Dashboard.Proofs.Document.Guards
import Dashboard.Proofs.Table
/-!
# What widgets register

Constants and components get names that stay on their lines. The only other texts that widgets
register are the families of their fonts and the durations of their graphs, just as they are given.
-/

namespace Dashboard

open Text

namespace Emission

variable {α β : Type} {I : Resources → Prop} {Q : α → Prop} {R : β → Prop}

/-- Whenever the computation succeeds, its answer is as described, and the resources are as described
after it if they were so before. -/
def Yields (I : Resources → Prop) (Q : α → Prop) (e : Emission α) : Prop :=
  ∀ r, I r → ∀ a after, runWith e r = (.ok a, after) → Q a ∧ I after

namespace Yields

theorem pure {a : α} (h : Q a) : Yields I Q (Pure.pure a : Emission α) := by
  intro r hr a' after he
  cases he
  exact ⟨h, hr⟩

theorem ofExcept {e : Except ExportError α} (h : ∀ a, e = .ok a → Q a) :
    Yields I Q (Emission.ofExcept e) := by
  intro r hr a after he
  cases he
  exact ⟨h a rfl, hr⟩

theorem register {f : Resources → α × Resources} (h : ∀ r, I r → Q (f r).1 ∧ I (f r).2) :
    Yields I Q (Emission.register f) := by
  intro r hr a after he
  cases he
  exact h r hr

theorem modify {f : Resources → Resources} (h : ∀ r, I r → I (f r)) :
    Yields I (fun _ => True) (modify f : Emission PUnit) := by
  intro r hr a after he
  cases he
  exact ⟨trivial, h r hr⟩

theorem bind {e : Emission α} {f : α → Emission β} (he : Yields I Q e)
    (hf : ∀ a, Q a → Yields I R (f a)) : Yields I R (e >>= f) := by
  intro r hr b after h
  obtain ⟨a, middle, hrun, hrest⟩ := ok_of_bind h
  obtain ⟨ha, hmiddle⟩ := he r hr a middle hrun
  exact hf a ha middle hmiddle b after hrest

theorem map {e : Emission α} {f : α → β} (he : Yields I Q e) (hf : ∀ a, Q a → R (f a)) :
    Yields I R (f <$> e) := by
  intro r hr b after h
  rw [runWith_map] at h
  rcases hrun : runWith e r with ⟨x | a, middle⟩
  · rw [hrun] at h
    cases h
  · rw [hrun] at h
    cases h
    obtain ⟨ha, hmiddle⟩ := he r hr a middle hrun
    exact ⟨hf a ha, hmiddle⟩

end Yields

end Emission

namespace Resources

/-- The family of a font: the default one, or one that a widget brought in. -/
def IsFamily (T : String → Prop) (family : String) : Prop :=
  family = FontRequest.defaultFamily ∨ ∃ raw, T raw ∧ family = FontRequest.familyOf raw

/-- An action that draws a display again. -/
def IsRefresh (action : String) : Prop := ∃ id, OneLine id ∧ action = "component.update: " ++ id

/-- Entities that widgets brought in, all of whose actions are refreshes. -/
def IsActions (T : String → Prop) (t : Actions) : Prop :=
  ∀ e ∈ t, (∃ raw, T raw ∧ Entity.normalize? raw = some e.1) ∧ ∀ a ∈ e.2, IsRefresh a.1

/-- The texts that widgets brought in satisfy a predicate; all other names stay on their lines. -/
structure IsOf (T : String → Prop) (r : Resources) : Prop where
  fonts : ∀ e ∈ r.fonts, IsFamily T e.2.family
  colors : ∀ e ∈ r.colors, OneLine e.1
  graphs : ∀ e ∈ r.graphs, OneLine e.2.id ∧ OneLine e.2.sensor ∧ T e.2.duration
  numeric : IsActions T r.triggers.numeric
  text : IsActions T r.triggers.text

variable {T : String → Prop} {r : Resources}

theorem isOf_empty (T : String → Prop) : IsOf T {} where
  fonts := fun _ h => absurd h List.not_mem_nil
  colors := fun _ h => absurd h List.not_mem_nil
  graphs := fun _ h => absurd h List.not_mem_nil
  numeric := fun _ h => absurd h List.not_mem_nil
  text := fun _ h => absurd h List.not_mem_nil

theorem IsOf.addFont (h : r.IsOf T) {f : FontRequest} (hf : IsFamily T f.family) :
    (addFont f r).2.IsOf T where
  fonts := by
    intro e he
    rcases Table.mem_putNew he with rfl | he
    · exact hf
    · exact h.fonts e he
  colors := h.colors
  graphs := h.graphs
  numeric := h.numeric
  text := h.text

theorem oneLine_constantName (color : String) : OneLine (Colors.constantName color) := by
  refine .append (by decide) (.ofList fun h => ?_)
  obtain ⟨c, hc, he⟩ := List.mem_map.mp h
  exact newline_ne_toLower (List.mem_filter.mp hc).2 he

theorem IsOf.addColor (h : r.IsOf T) (color : String) :
    OneLine (addColor color r).1 ∧ (addColor color r).2.IsOf T := by
  have hput : ∀ (name : String) (rgb : Rgb), OneLine name →
      IsOf T { r with colors := Table.putNew name rgb r.colors } := by
    intro name rgb hname
    refine ⟨h.fonts, fun e he => ?_, h.graphs, h.numeric, h.text⟩
    rcases Table.mem_putNew he with rfl | he
    · exact hname
    · exact h.colors e he
  unfold Resources.addColor Colors.constant
  cases Color.rgb? color with
  | some rgb => exact ⟨oneLine_constantName _, hput _ _ (oneLine_constantName _)⟩
  | none => exact ⟨oneLine_constantName _, hput _ _ (oneLine_constantName _)⟩

theorem IsOf.colorConstant? (h : r.IsOf T) (s : Setting) (value : String) (role : ColorRole) :
    (∀ name ∈ (colorConstant? s value role r).1, OneLine name) ∧
      (colorConstant? s value role r).2.IsOf T := by
  unfold Resources.colorConstant?
  cases s.color? value role with
  | none => exact ⟨fun _ hn => (nomatch hn), h⟩
  | some c =>
    obtain ⟨hname, hafter⟩ := h.addColor c
    exact ⟨fun name hn => Option.mem_some.mp hn ▸ hname, hafter⟩

theorem IsOf.colorConstant (h : r.IsOf T) (s : Setting) (value : String) (role : ColorRole) :
    OneLine (colorConstant s value role r).1 ∧ (colorConstant s value role r).2.IsOf T := by
  obtain ⟨hnames, hafter⟩ := h.colorConstant? s value role
  unfold Resources.colorConstant
  rcases hc : Resources.colorConstant? s value role r with ⟨name, after⟩
  rw [hc] at hnames hafter
  cases name with
  | some name => exact ⟨hnames name rfl, hafter⟩
  | none => exact hafter.addColor _

theorem IsOf.addGraph (h : r.IsOf T) {g : Graph} (hid : OneLine g.id) (hsensor : OneLine g.sensor)
    (hduration : T g.duration) : (addGraph g r).2.IsOf T where
  fonts := h.fonts
  colors := h.colors
  graphs := by
    intro e he
    rcases Table.mem_put he with rfl | he
    · exact ⟨hid, hsensor, hduration⟩
    · exact h.graphs e he
  numeric := h.numeric
  text := h.text

theorem IsActions.put {t : Actions} (h : IsActions T t) {raw entity action : String} (ht : T raw)
    (hentity : Entity.normalize? raw = some entity) (haction : IsRefresh action) :
    IsActions T (t.put entity (((t.find? entity).getD []).put action ())) := by
  intro e he
  rcases Table.mem_put he with rfl | he
  · refine ⟨⟨raw, ht, hentity⟩, fun a ha => ?_⟩
    rcases Table.mem_put ha with rfl | ha
    · exact haction
    · cases hfound : t.find? entity with
      | none =>
        rw [hfound] at ha
        exact absurd ha List.not_mem_nil
      | some actions =>
        rw [hfound] at ha
        exact (h (entity, actions) (Table.mem_of_find? hfound)).2 a ha
  · exact h e he

/-- Entities that widgets brought in, in both sections. -/
def AreOf (T : String → Prop) (t : Triggers) : Prop := IsActions T t.numeric ∧ IsActions T t.text

theorem AreOf.register {t : Triggers} (h : AreOf T t) {raw entity action : String} (ht : T raw)
    (hentity : Entity.normalize? raw = some entity) (haction : IsRefresh action) :
    AreOf T (t.register entity action) := by
  unfold Triggers.register Triggers.change
  rw [Entity.normalize?_of_normalize? hentity]
  dsimp only
  split
  · exact ⟨h.1, h.2.put ht hentity haction⟩
  · exact ⟨h.1.put ht hentity haction, h.2⟩

end Resources

end Dashboard
