import Dashboard.Proofs.Json.Records
/-!
# Answers of decoders

What a decoder answers is made of the parts of its source: a record of the members or items that it finds,
a list of its items, a bag of its members. In the other direction, a written list and a written bag are
decoded as they are.
-/

namespace Dashboard.Json

open Number

namespace Record

variable {α β : Type}

theorem mem_of_findMember {ms : Source.Members} {name : String} {s : Source}
    (h : findMember ms name = some s) : ∃ m ∈ ms, m.2 = s := by
  induction ms with
  | nil => cases h
  | cons m ms ih =>
    have hrest : findMember ms name = some s → ∃ m' ∈ m :: ms, m'.2 = s := fun h => by
      obtain ⟨m', hm', hs⟩ := ih h
      exact ⟨m', List.mem_cons_of_mem m hm', hs⟩
    obtain ⟨e | k, v⟩ := m
    · exact hrest h
    · rw [findMember] at h
      split at h
      · cases h
        exact ⟨_, List.mem_cons_self, rfl⟩
      · exact hrest h

theorem mem_of_findItem {fs : List FieldCheck} {ss : List Source} {name : String} {s : Source}
    (h : findItem fs ss name = some s) : s ∈ ss := by
  induction fs generalizing ss with
  | nil => cases h
  | cons f fs ih =>
    cases ss with
    | nil => cases h
    | cons s' ss =>
      rw [findItem] at h
      split at h
      · cases h
        exact List.mem_cons_self
      · exact List.mem_cons_of_mem s' (ih h)

/-- What a walk hands on comes from members that the record does not know. -/
theorem exists_of_walk {r : Record α} {o : Origin} {other : String → Source → Decoded β}
    {seen : List String} {ms : Source.Members} {bs : List β} (h : r.walk o other seen ms = .ok bs) :
    ∀ b ∈ bs, ∃ m ∈ ms, ∃ k, k ∉ r.names ∧ other k m.2 = .ok b := by
  induction ms generalizing seen bs with
  | nil =>
    cases h
    exact fun _ hb => absurd hb List.not_mem_nil
  | cons m ms ih =>
    have hrest : ∀ {seen bs}, r.walk o other seen ms = .ok bs → ∀ b ∈ bs, ∃ m' ∈ m :: ms,
        ∃ k, k ∉ r.names ∧ other k m'.2 = .ok b := fun h b hb => by
      obtain ⟨m', hm', hk⟩ := ih h b hb
      exact ⟨m', List.mem_cons_of_mem m hm', hk⟩
    obtain ⟨k, -, hwalk⟩ := exists_of_bind h
    cases hcheck : r.check? k with
    | some check =>
      simp only [hcheck] at hwalk
      split at hwalk
      · cases hwalk
      · obtain ⟨_, -, hwalk⟩ := exists_of_bind hwalk
        exact hrest hwalk
    | none =>
      simp only [hcheck] at hwalk
      obtain ⟨b, hb, hothers⟩ := exists_of_bind hwalk
      obtain ⟨bs, hbs, hend⟩ := exists_of_bind hothers
      cases hend
      exact List.forall_mem_cons.mpr ⟨⟨m, List.mem_cons_self, k, check?_eq_none.mp hcheck, hb⟩, hrest hbs⟩

theorem build_of_ofItems {r : Record α} {title : String} {o : Origin} {items : List Source} {ending : ListEnd}
    {surplus : Nat → DecodeError} {a : α} (h : r.ofItems title o items ending surplus = .ok a) :
    r.build ⟨o, findItem r.fields items, r.lengthFault title, false⟩ = .ok a := by
  obtain ⟨_, -, hlength⟩ := exists_of_bind h
  -- The length is checked before and after the fields are read.
  have hread : (do
      let a ← r.build ⟨o, findItem r.fields items, r.lengthFault title, false⟩
      if o.isText then atEnd (overflowFault? items r.fields.length ending)
      else if r.fields.length < items.length then .error (surplus items.length)
      return a) = Except.ok a →
      r.build ⟨o, findItem r.fields items, r.lengthFault title, false⟩ = .ok a := by
    intro hanswer
    obtain ⟨b, hbuild, hend⟩ := exists_of_bind hanswer
    simp only at hend
    split at hend
    · obtain ⟨_, -, hb⟩ := exists_of_bind hend
      rw [hbuild, ← hb]
      rfl
    · split at hend
      · cases hend
      · rw [hbuild, ← hend]
        rfl
  simp only at hlength
  split at hlength
  · obtain ⟨_, -, hanswer⟩ := exists_of_bind hlength
    exact hread hanswer
  · exact hread hlength

section reading

variable {r : Record α} {o inner : Origin} {s : Source} {title : String} {P : Numeral → Prop} {Q : α → Prop}

/-- The answer of a record to a source is as its fields say of the parts of the source. -/
theorem Takes.read (h : r.Takes inner (fun _ s => s.AllNumbers P) Q) (hopen : o.enter = .ok inner)
    (hs : s.AllNumbers P) {a : α} (ha : r.closed title o s = .ok a) : Q a := by
  cases hs with
  | @object members hmembers ending =>
    obtain ⟨inner', hinner, hwalk⟩ := exists_of_bind ha
    obtain rfl := Except.ok.inj (hinner.symm.trans hopen)
    obtain ⟨_, -, hend⟩ := exists_of_bind hwalk
    obtain ⟨_, -, hbuild⟩ := exists_of_bind hend
    refine h _ rfl (fun name s hfound => ?_) a hbuild
    obtain ⟨m, hm, rfl⟩ := mem_of_findMember hfound
    exact hmembers m hm
  | @list items hitems ending =>
    obtain ⟨inner', hinner, hread⟩ := exists_of_bind ha
    obtain rfl := Except.ok.inj (hinner.symm.trans hopen)
    exact h _ rfl (fun name s hfound => hitems s (mem_of_findItem hfound)) a (build_of_ofItems hread)
  | _ => exact absurd ha Source.mismatch_ne_ok

/-- What is left over by a record comes from members that the record does not know. -/
theorem Takes.readOpen (h : r.Takes inner (fun _ s => s.AllNumbers P) Q) (hopen : o.enter = .ok inner)
    (hs : s.AllNumbers P) {a : α} {rest : List (String × Json)} (ha : r.openEnded title o s = .ok (a, rest)) :
    Q a ∧ ∀ e ∈ rest, e.1 ∉ r.names ∧ e.2.AllNumbers P ∧ ∀ room, inner = .text room → e.2.Fits room := by
  cases hs with
  | @object members hmembers ending =>
    obtain ⟨inner', hinner, hwalk⟩ := exists_of_bind ha
    obtain rfl := Except.ok.inj (hinner.symm.trans hopen)
    obtain ⟨others, hothers, hend⟩ := exists_of_bind hwalk
    obtain ⟨_, -, hanswer⟩ := exists_of_bind hend
    obtain ⟨b, hbuild, hpair⟩ := exists_of_bind hanswer
    obtain ⟨rfl, rfl⟩ := Prod.mk.inj (Except.ok.inj hpair)
    refine ⟨h _ rfl (fun name s hfound => ?_) b hbuild, fun e he => ?_⟩
    · obtain ⟨m, hm, rfl⟩ := mem_of_findMember hfound
      exact hmembers m hm
    · obtain ⟨m, hm, k, hk, hvalue⟩ := exists_of_walk hothers e he
      obtain ⟨v, hv, rfl⟩ := exists_of_map hvalue
      refine ⟨hk, (hmembers m hm).toJson hv, fun room hroom => ?_⟩
      subst hroom
      exact Source.fits_of_toJson hv
  | _ => exact absurd ha Source.mismatch_ne_ok

end reading

end Record

namespace Decoder

variable {α : Type} {d : Decoder α} {o inner : Origin} {s : Source} {P : Numeral → Prop}

theorem exists_of_itemsWith {ss : List Source} {as : List α} (h : itemsWith d o ss = .ok as) :
    ∀ a ∈ as, ∃ s ∈ ss, d o s = .ok a := by
  induction ss generalizing as with
  | nil =>
    cases h
    exact fun _ ha => absurd ha List.not_mem_nil
  | cons s ss ih =>
    obtain ⟨a, ha, hrest⟩ := exists_of_bind h
    obtain ⟨as, has, hend⟩ := exists_of_bind hrest
    cases hend
    refine List.forall_mem_cons.mpr ⟨⟨s, List.mem_cons_self, ha⟩, fun b hb => ?_⟩
    obtain ⟨s', hs', hb⟩ := ih has b hb
    exact ⟨s', List.mem_cons_of_mem s hs', hb⟩

/-- The items of a list are read one level deeper. -/
theorem exists_of_list (hopen : o.enter = .ok inner) (hs : s.AllNumbers P) {as : List α}
    (h : list d o s = .ok as) : ∀ a ∈ as, ∃ s, s.AllNumbers P ∧ d inner s = .ok a := by
  cases hs with
  | @list items hitems ending =>
    obtain ⟨inner', hinner, hread⟩ := exists_of_bind h
    obtain rfl := Except.ok.inj (hinner.symm.trans hopen)
    obtain ⟨bs, hbs, hend⟩ := exists_of_bind hread
    obtain ⟨_, -, hanswer⟩ := exists_of_bind hend
    cases hanswer
    intro a ha
    obtain ⟨s, hs, ha⟩ := exists_of_itemsWith hbs a ha
    exact ⟨s, hitems s hs, ha⟩
  | _ => exact absurd h Source.mismatch_ne_ok

/-- A bag that was read is in key order, and its values are values of the source. -/
theorem sorted_of_bag (hopen : o.enter = .ok inner) (hs : s.AllNumbers P) {b : Bag} (h : bag o s = .ok b) :
    Table.Sorted b ∧ ∀ e ∈ b, e.2.AllNumbers P ∧ ∀ room, inner = .text room → e.2.Fits room := by
  cases hs with
  | @object members hmembers ending =>
    obtain ⟨inner', hinner, hread⟩ := exists_of_bind h
    obtain rfl := Except.ok.inj (hinner.symm.trans hopen)
    obtain ⟨fs, hfs, hend⟩ := exists_of_bind hread
    obtain ⟨_, -, hanswer⟩ := exists_of_bind hend
    cases hanswer
    refine ⟨Table.sorted_ofList fs, fun e he => ?_⟩
    obtain ⟨m, hm, hv⟩ := Source.exists_of_toFields hfs e (Table.mem_ofList he)
    refine ⟨(hmembers m hm).toJson hv, fun room hroom => ?_⟩
    subst hroom
    exact Source.fits_of_toJson hv
  | _ => exact absurd h Source.mismatch_ne_ok

theorem itemsWith_ofItems {encode : α → Json} {as : List α}
    (h : ∀ a ∈ as, d o (Source.ofJson (encode a)) = .ok a) :
    itemsWith d o (Source.ofItems (as.map encode)) = .ok as := by
  induction as with
  | nil => rfl
  | cons a as ih =>
    obtain ⟨ha, has⟩ := List.forall_mem_cons.mp h
    rw [List.map_cons, Source.ofItems, itemsWith, ha, ih has]
    rfl

theorem list_ofJson {encode : α → Json} {as : List α} (hopen : o.enter = .ok inner)
    (h : ∀ a ∈ as, d inner (Source.ofJson (encode a)) = .ok a) :
    list d o (Source.ofJson (.array (as.map encode))) = .ok as := by
  change (o.enter >>= _) = _
  rw [hopen]
  change (itemsWith d inner (Source.ofItems (as.map encode)) >>= _) = _
  rw [itemsWith_ofItems h]
  rfl

theorem bag_ofJson {b : Bag} {room : Nat} (hopen : o.enter = .ok (.text room)) (hsorted : Table.Sorted b)
    (h : ∀ e ∈ b, e.2.Fits room) : bag o (Source.ofJson (.object b)) = .ok b := by
  change (o.enter >>= _) = _
  rw [hopen]
  change (Source.toFields (.text room) (Source.ofFields b) >>= _) = _
  rw [Source.toFields_ofFields fun e he => Source.toJson_ofJson (h e he)]
  exact congrArg Except.ok (Table.ofList_of_sorted hsorted)

end Decoder

end Dashboard.Json
