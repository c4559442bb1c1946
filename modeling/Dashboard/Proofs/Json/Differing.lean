import Dashboard.Proofs.Json.Local
/-!
# Objects that differ in one member

Two objects that are the same but for what stands under one name are read into answers that differ in one place only:
where the answers of the field of that name go.
-/

namespace Dashboard.Json.Record

variable {α β : Type} {key : String}

/-- Whenever a record reads two objects that differ under one name only, the answers are related. -/
def Relates (r : Record α) (key : String) (R : α → α → Prop) : Prop :=
  ∀ (access : Access) (find? : String → Option Source), (∀ name, name ≠ key → find? name = access.find? name) →
    ∀ a b, r.build access = .ok a → r.build { access with find? } = .ok b → R a b

namespace Relates

variable {R : α → α → Prop} {T : β → β → Prop}

theorem map {r : Record α} {f : α → β} (hf : ∀ a b, R a b → T (f a) (f b)) (h : r.Relates key R) :
    (f <$> r).Relates key T := by
  intro access find? hfind c d hc hd
  change (r.build access).map f = _ at hc
  change (r.build { access with find? }).map f = _ at hd
  cases ha : r.build access with
  | error e => exact nomatch (ha ▸ hc)
  | ok a =>
    cases hb : r.build { access with find? } with
    | error e => exact nomatch (hb ▸ hd)
    | ok b =>
      rw [ha] at hc
      rw [hb] at hd
      cases hc
      cases hd
      exact hf a b (h access find? hfind a b ha hb)

theorem seq {f : Record (α → β)} {r : Record α} (hf : f.Relates key fun g g' => ∀ a b, R a b → T (g a) (g' b))
    (hr : r.Relates key R) : (f <*> r).Relates key T := by
  intro access find? hfind c d hc hd
  obtain ⟨g, hg, hc⟩ := exists_of_bind hc
  obtain ⟨a, ha, hc⟩ := exists_of_bind hc
  obtain ⟨g', hg', hd⟩ := exists_of_bind hd
  obtain ⟨b, hb, hd⟩ := exists_of_bind hd
  cases hc
  cases hd
  exact hf access find? hfind g g' hg hg' a b (hr access find? hfind a b ha hb)

theorem other {name : String} {d : Decoder α} {default : α} (hname : name ≠ key) :
    (Record.withDefault name d default).Relates key Eq := by
  intro access find? hfind a b ha hb
  have hlocal : (Record.withDefault name d default).build { access with find? } =
      (Record.withDefault name d default).build access := by
    refine IsLocal.withDefault access find? fun n hn => ?_
    obtain rfl := List.mem_singleton.mp hn
    exact hfind _ hname
  exact Except.ok.inj (ha.symm.trans (hlocal.symm.trans hb))

theorem any {r : Record α} : r.Relates key fun _ _ => True := fun _ _ _ _ _ _ _ => trivial

theorem closed {r : Record α} (h : r.Relates key R) {fs gs : List (String × Json)}
    (hsame : ∀ name, name ≠ key → gs.lookup name = fs.lookup name) {title : String} {a b : α}
    (ha : Json.ofJson (r.closed title) (.object fs) = .ok a)
    (hb : Json.ofJson (r.closed title) (.object gs) = .ok b) : R a b := by
  refine h (accessTo .value fs) (Record.findMember (Source.ofFields gs)) (fun name hname => ?_) a b
    (build_of_closed ha) (build_of_closed hb)
  simp only [accessTo, findMember_ofFields, hsame name hname]

end Relates

end Dashboard.Json.Record
