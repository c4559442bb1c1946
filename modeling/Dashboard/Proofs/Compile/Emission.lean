import Dashboard.Kind.Registry
/-!
# Computations that register resources

What an emission does to the resources and what it answers, operation by operation. An emission is
oblivious when its answer is the same whatever was registered before it. Emissions that register
fonts, colors and graphs answer with the names of these, which the registries do not influence, and
oblivious emissions are closed under sequencing. An emission gives a property when it always succeeds
with an answer of that property.
-/

namespace Dashboard

namespace Emission

variable {α β : Type}

@[simp] theorem runWith_pure (a : α) (r : Resources) : runWith (pure a) r = (.ok a, r) := rfl

@[simp] theorem runWith_ofExcept (e : Except ExportError α) (r : Resources) :
    runWith (ofExcept e) r = (e, r) := rfl

@[simp] theorem runWith_register (f : Resources → α × Resources) (r : Resources) :
    runWith (register f) r = (.ok (f r).1, (f r).2) := rfl

@[simp] theorem runWith_get (r : Resources) : runWith get r = (.ok r, r) := rfl

@[simp] theorem runWith_modify (f : Resources → Resources) (r : Resources) :
    runWith (modify f) r = (.ok (), f r) := rfl

theorem runWith_bind (e : Emission α) (f : α → Emission β) (r : Resources) :
    runWith (e >>= f) r =
      match runWith e r with
      | (.ok a, after) => runWith (f a) after
      | (.error x, after) => (.error x, after) := by
  change runWith (ExceptT.bind e f) r = _
  simp only [ExceptT.bind, ExceptT.mk, runWith, ExceptT.run, StateT.run, bind, StateT.bind]
  rcases e r with ⟨a | a, after⟩ <;> rfl

theorem runWith_bind_congr {e : Emission α} {f g : α → Emission β} {r : Resources}
    (h : ∀ a after, runWith e r = (.ok a, after) → runWith (f a) after = runWith (g a) after) :
    runWith (e >>= f) r = runWith (e >>= g) r := by
  rw [runWith_bind, runWith_bind]
  rcases hrun : runWith e r with ⟨x | a, after⟩
  · rfl
  · exact h a after hrun

theorem runWith_map (f : α → β) (e : Emission α) (r : Resources) :
    runWith (f <$> e) r = ((runWith e r).1.map f, (runWith e r).2) := by
  change runWith (ExceptT.map f e) r = _
  simp only [ExceptT.map, ExceptT.mk, runWith, ExceptT.run, StateT.run, bind, StateT.bind]
  rcases e r with ⟨a | a, after⟩ <;> rfl

theorem ok_of_pure {a b : α} {r after : Resources} (h : runWith (pure b) r = (.ok a, after)) :
    a = b ∧ after = r := by
  cases h
  exact ⟨rfl, rfl⟩

theorem ok_of_ofExcept {e : Except ExportError α} {a : α} {r after : Resources}
    (h : runWith (ofExcept e) r = (.ok a, after)) : e = .ok a ∧ after = r :=
  ⟨congrArg Prod.fst h, (congrArg Prod.snd h).symm⟩

theorem ok_of_register {f : Resources → α × Resources} {a : α} {r after : Resources}
    (h : runWith (register f) r = (.ok a, after)) : a = (f r).1 ∧ after = (f r).2 :=
  ⟨(Except.ok.inj (congrArg Prod.fst h)).symm, (congrArg Prod.snd h).symm⟩

/-- Two computations that succeed one after the other succeed each. -/
theorem ok_of_bind {e : Emission α} {f : α → Emission β} {r after : Resources} {b : β}
    (h : runWith (e >>= f) r = (.ok b, after)) :
    ∃ a middle, runWith e r = (.ok a, middle) ∧ runWith (f a) middle = (.ok b, after) := by
  rw [runWith_bind] at h
  rcases hrun : runWith e r with ⟨x | a, middle⟩
  · rw [hrun] at h
    cases h
  · rw [hrun] at h
    exact ⟨a, middle, rfl, h⟩

/-- The answer does not depend on what was registered before. -/
def Oblivious (e : Emission α) : Prop := ∀ r r', (runWith e r).1 = (runWith e r').1

namespace Oblivious

theorem pure (a : α) : Oblivious (Pure.pure a : Emission α) := fun _ _ => rfl

theorem ofExcept (e : Except ExportError α) : Oblivious (Emission.ofExcept e) := fun _ _ => rfl

theorem modify (f : Resources → Resources) : Oblivious (modify f : Emission PUnit) := fun _ _ => rfl

theorem register {f : Resources → α × Resources} (h : ∀ r r', (f r).1 = (f r').1) :
    Oblivious (Emission.register f) := fun r r' => congrArg Except.ok (h r r')

theorem bind {e : Emission α} {f : α → Emission β} (he : Oblivious e)
    (hf : ∀ a, Oblivious (f a)) : Oblivious (e >>= f) := by
  intro r r'
  have h := he r r'
  rw [runWith_bind, runWith_bind]
  rcases hr : runWith e r with ⟨answer, after⟩
  rcases hr' : runWith e r' with ⟨answer', after'⟩
  rw [hr, hr'] at h
  subst h
  cases answer with
  | error x => rfl
  | ok a => exact hf a after after'

theorem map {e : Emission α} (f : α → β) (he : Oblivious e) : Oblivious (f <$> e) := by
  intro r r'
  rw [runWith_map, runWith_map, he r r']

theorem ite {c : Prop} [Decidable c] {e e' : Emission α} (he : Oblivious e) (he' : Oblivious e') :
    Oblivious (if c then e else e') := by
  split
  · exact he
  · exact he'

end Oblivious

/-- A computation that succeeds whatever was registered before, with an answer that has a property. -/
def Gives (Q : α → Prop) (e : Emission α) : Prop := ∀ r, ∃ a after, runWith e r = (.ok a, after) ∧ Q a

namespace Gives

variable {Q : α → Prop}

theorem pure {a : α} (h : Q a) : Gives Q (Pure.pure a : Emission α) := fun r => ⟨a, r, rfl, h⟩

theorem ofExcept_bind {e : Except ExportError α} {a : α} (he : e = .ok a) {f : α → Emission β} {P : β → Prop}
    (hf : Gives P (f a)) : Gives P (Emission.ofExcept e >>= f) := by
  intro r
  obtain ⟨b, after, hb, hp⟩ := hf r
  exact ⟨b, after, by rw [runWith_bind, runWith_ofExcept, he]; exact hb, hp⟩

theorem register {f : Resources → α × Resources} (h : ∀ r, Q (f r).1) : Gives Q (Emission.register f) :=
  fun r => ⟨(f r).1, (f r).2, rfl, h r⟩

theorem bind {e : Emission α} {f : α → Emission β} {P : β → Prop} (he : Gives Q e)
    (hf : ∀ a, Q a → Gives P (f a)) : Gives P (e >>= f) := by
  intro r
  obtain ⟨a, middle, ha, hq⟩ := he r
  obtain ⟨b, after, hb, hp⟩ := hf a hq middle
  exact ⟨b, after, by rw [runWith_bind, ha]; exact hb, hp⟩

theorem ofExcept_get_bind {f : Resources → Except ExportError α} {a : α} (h : ∀ r, f r = .ok a) {g : α → Emission β}
    {P : β → Prop} (hg : Gives P (g a)) : Gives P (do let b ← Emission.ofExcept (f (← get)); g b) := by
  intro r
  obtain ⟨b, after, hb, hp⟩ := hg r
  exact ⟨b, after, by rw [runWith_bind, runWith_get]; simp only [runWith_bind, runWith_ofExcept, h]; exact hb, hp⟩

theorem mono {e : Emission α} {P : α → Prop} (he : Gives Q e) (h : ∀ a, Q a → P a) : Gives P e := by
  intro r
  obtain ⟨a, after, ha, hq⟩ := he r
  exact ⟨a, after, ha, h a hq⟩

theorem unique {e : Emission α} {f : α → β} {b b' : β} (h : Gives (fun a => f a = b) e)
    (h' : Gives (fun a => f a = b') e) : b = b' := by
  obtain ⟨a, after, ha, hb⟩ := h {}
  obtain ⟨a', after', ha', hb'⟩ := h' {}
  obtain ⟨rfl, -⟩ : a = a' ∧ after = after' := by simpa [ha] using ha'
  exact hb.symm.trans hb'

end Gives

end Emission

namespace Resources

theorem addColor_fst (color : String) (r r' : Resources) :
    (addColor color r).1 = (addColor color r').1 := by
  unfold addColor Colors.constant
  cases Color.rgb? color <;> rfl

theorem colorConstant?_fst (s : Setting) (value : String) (role : ColorRole) (r r' : Resources) :
    (colorConstant? s value role r).1 = (colorConstant? s value role r').1 := by
  unfold colorConstant?
  cases s.color? value role with
  | none => rfl
  | some c => exact congrArg some (addColor_fst c r r')

theorem colorConstant_fst (s : Setting) (value : String) (role : ColorRole) (r r' : Resources) :
    (colorConstant s value role r).1 = (colorConstant s value role r').1 := by
  have h := colorConstant?_fst s value role r r'
  unfold colorConstant
  rcases hr : colorConstant? s value role r with ⟨name, after⟩
  rcases hr' : colorConstant? s value role r' with ⟨name', after'⟩
  rw [hr, hr'] at h
  subst h
  cases name with
  | some name => rfl
  | none => exact addColor_fst _ after after'

theorem addFont_fst (f : FontRequest) (r r' : Resources) : (addFont f r).1 = (addFont f r').1 := rfl

theorem addGraph_fst (g : Graph) (r r' : Resources) : (addGraph g r).1 = (addGraph g r').1 := rfl

end Resources

namespace Emission.Oblivious

theorem addFont (f : FontRequest) : Oblivious (Emission.register (Resources.addFont f)) :=
  register (Resources.addFont_fst f)

theorem addGraph (g : Graph) : Oblivious (Emission.register (Resources.addGraph g)) :=
  register (Resources.addGraph_fst g)

theorem colorConstant (s : Setting) (value : String) (role : ColorRole) :
    Oblivious (Emission.register (Resources.colorConstant s value role)) :=
  register (Resources.colorConstant_fst s value role)

theorem colorConstant? (s : Setting) (value : String) (role : ColorRole) :
    Oblivious (Emission.register (Resources.colorConstant? s value role)) :=
  register (Resources.colorConstant?_fst s value role)

end Emission.Oblivious

end Dashboard
