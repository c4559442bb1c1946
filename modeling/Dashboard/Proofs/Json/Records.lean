import Dashboard.Proofs.Json.Contents
/-!
# Reading records

A record accepts an object whose members its fields accept one by one, whatever their order. In the
other direction, what a record answers is as its fields say, given what they find: a member of the object,
an item of the list, or a default.
-/

namespace Dashboard.Json

variable {α β : Type}

theorem Source.mismatch_ne_ok {source : Source} {expected : String} {a : α} :
    (source.mismatch expected : Decoded α) ≠ .ok a := by
  intro h
  obtain ⟨f, -, hf⟩ := exists_of_bind h
  exact nomatch hf

namespace Record

theorem findMember_ofFields (fs : List (String × Json)) (name : String) :
    findMember (Source.ofFields fs) name = (fs.lookup name).map Source.ofJson := by
  induction fs with
  | nil => rfl
  | cons f fs ih =>
    obtain ⟨k, v⟩ := f
    rw [Source.ofFields, findMember, List.lookup_cons]
    by_cases hk : k = name
    · simp [hk]
    · have hne : (name == k) = false := by simpa using Ne.symm hk
      rw [if_neg hk, hne]
      exact ih

/-- The access of a record to the members of a value. -/
def accessTo (o : Origin) (fs : List (String × Json)) : Access :=
  ⟨o, findMember (Source.ofFields fs), .missing, true⟩

section field

variable {name : String} {d : Decoder α} {whenAbsent : Access → Decoded α} {access : Access}

theorem build_field {s : Source} (h : access.find? name = some s) :
    (field name d whenAbsent).build access = d access.origin s := by
  simp only [field, h]

theorem build_field_absent (h : access.find? name = none) :
    (field name d whenAbsent).build access = whenAbsent access := by
  simp only [field, h]

end field

/-! ## Accepted objects -/

/-- The members that belong to fields are accepted, and together they give an answer. -/
structure Accepts (r : Record α) (o : Origin) (fs : List (String × Json)) (a : α) : Prop where
  checks : ∀ f ∈ r.fields, ∀ v, fs.lookup f.name = some v → f.check o (Source.ofJson v) = .ok ()
  builds : r.build (accessTo o fs) = .ok a

namespace Accepts

variable {o : Origin} {fs : List (String × Json)}

theorem map {r : Record α} {a : α} (h : r.Accepts o fs a) (f : α → β) : (f <$> r).Accepts o fs (f a) where
  checks := h.checks
  builds := by
    change (r.build (accessTo o fs)).map f = _
    rw [h.builds]
    rfl

theorem seq {f : Record (α → β)} {r : Record α} {g : α → β} {a : α} (hf : f.Accepts o fs g)
    (hr : r.Accepts o fs a) : (f <*> r).Accepts o fs (g a) where
  checks := List.forall_mem_append.mpr ⟨hf.checks, hr.checks⟩
  builds := by
    change (do
      let g ← f.build (accessTo o fs)
      let x ← r.build (accessTo o fs)
      return g x) = _
    rw [hf.builds, hr.builds]
    rfl

section field

variable {name : String} {d : Decoder α} {whenAbsent : Access → Decoded α} {a : α}

theorem field {v : Json} (hv : fs.lookup name = some v) (hd : d o (Source.ofJson v) = .ok a) :
    (Record.field name d whenAbsent).Accepts o fs a where
  checks := by
    intro f hf v' hv'
    obtain rfl := List.mem_singleton.mp hf
    obtain rfl := Option.some.inj (hv.symm.trans hv')
    change (d o (Source.ofJson v)).map _ = _
    rw [hd]
    rfl
  builds := by
    have hfound : (accessTo o fs).find? name = some (Source.ofJson v) :=
      (findMember_ofFields fs name).trans (by rw [hv, Option.map_some])
    rw [build_field hfound]
    exact hd

theorem absent (hv : fs.lookup name = none) (ha : whenAbsent (accessTo o fs) = .ok a) :
    (Record.field name d whenAbsent).Accepts o fs a where
  checks := by
    intro f hf v hv'
    obtain rfl := List.mem_singleton.mp hf
    exact nomatch hv.symm.trans hv'
  builds := by
    have hfound : (accessTo o fs).find? name = none :=
      (findMember_ofFields fs name).trans (by rw [hv, Option.map_none])
    rw [build_field_absent hfound, ha]

end field

end Accepts

theorem check?_eq_none {r : Record α} {name : String} : r.check? name = none ↔ name ∉ r.names := by
  simp [check?, names]

theorem exists_of_check? {r : Record α} {name : String} {check : Decoder Unit}
    (h : r.check? name = some check) : ∃ f ∈ r.fields, f.name = name ∧ f.check = check := by
  obtain ⟨f, hf, rfl⟩ := Option.map_eq_some_iff.mp h
  exact ⟨f, List.mem_of_find?_eq_some hf, by simpa using List.find?_some hf, rfl⟩

/-- The members of an object that a record knows are passed one by one, the others are handed on. -/
theorem walk_ofFields {r : Record α} {o : Origin} (other : String → Source → Decoded β)
    {g : String × Json → β} {fs : List (String × Json)} {seen : List String}
    (hchecks : ∀ f ∈ fs, ∀ check, r.check? f.1 = some check → check o (Source.ofJson f.2) = .ok ())
    (hother : ∀ f ∈ fs, r.check? f.1 = none → other f.1 (Source.ofJson f.2) = .ok (g f))
    (hdistinct : (fs.map Prod.fst).Nodup) (hseen : ∀ f ∈ fs, f.1 ∉ seen) :
    r.walk o other seen (Source.ofFields fs) =
      .ok ((fs.filter fun f => (r.check? f.1).isNone).map g) := by
  induction fs generalizing seen with
  | nil => rfl
  | cons f fs ih =>
    obtain ⟨hnot, hdistinct⟩ := List.nodup_cons.mp hdistinct
    have hchecks' := fun f hf => hchecks f (List.mem_cons_of_mem _ hf)
    have hother' := fun f hf => hother f (List.mem_cons_of_mem _ hf)
    rw [Source.ofFields, walk]
    cases hcheck : r.check? f.1 with
    | some check =>
      have hunseen : seen.contains f.1 = false := by simpa using hseen f List.mem_cons_self
      have hseen' : ∀ f' ∈ fs, f'.1 ∉ f.1 :: seen := fun f' hf' hmem => by
        rcases List.mem_cons.mp hmem with he | hmem
        · exact hnot (he ▸ List.mem_map.mpr ⟨f', hf', rfl⟩)
        · exact hseen f' (List.mem_cons_of_mem _ hf') hmem
      have hrest := ih hchecks' hother' hdistinct hseen'
      have hok := hchecks f List.mem_cons_self check hcheck
      rw [List.filter_cons_of_neg (by simp [hcheck])]
      simp only [orFault, bind, Except.bind, hcheck, hunseen, hok, hrest, Bool.false_eq_true, if_false]
    | none =>
      have hrest := ih hchecks' hother' hdistinct fun f' hf' => hseen f' (List.mem_cons_of_mem _ hf')
      have hok := hother f List.mem_cons_self hcheck
      rw [List.filter_cons_of_pos (by simp [hcheck]), List.map_cons]
      simp only [orFault, bind, Except.bind, hcheck, hok, hrest]
      rfl

namespace Accepts

variable {r : Record α} {o inner : Origin} {fs : List (String × Json)} {a : α}

theorem check (h : r.Accepts inner fs a) (hdistinct : (fs.map Prod.fst).Nodup) :
    ∀ f ∈ fs, ∀ check, r.check? f.1 = some check → check inner (Source.ofJson f.2) = .ok () := by
  intro f hf check hcheck
  obtain ⟨field, hfield, hname, rfl⟩ := exists_of_check? hcheck
  exact h.checks field hfield f.2 (hname ▸ Table.lookup_of_mem hdistinct hf)

theorem closed (h : r.Accepts inner fs a) (hopen : o.enter = .ok inner)
    (hdistinct : (fs.map Prod.fst).Nodup) (title : String) :
    r.closed title o (Source.ofJson (.object fs)) = .ok a := by
  have hwalk := walk_ofFields (fun _ s => s.skip) (g := fun _ => ()) (h.check hdistinct)
    (fun f _ _ => Source.skip_ofJson f.2) hdistinct fun _ _ => List.not_mem_nil
  have hbuild : r.ofMembers inner (Source.ofFields fs) = .ok a := h.builds
  simp only [Source.ofJson, Record.closed, hopen, hwalk, hbuild, bind, Except.bind, atEnd,
    ObjectEnd.reading?]

/-- An object gives the members that a record does not know, as they are. -/
theorem openEnded (h : r.Accepts inner fs a) (hopen : o.enter = .ok inner)
    (hdistinct : (fs.map Prod.fst).Nodup)
    (hothers : ∀ f ∈ fs, f.1 ∉ r.names → (Source.ofJson f.2).toJson inner = .ok f.2) (title : String) :
    r.openEnded title o (Source.ofJson (.object fs)) =
      .ok (a, fs.filter fun f => (r.check? f.1).isNone) := by
  have hwalk := walk_ofFields (fun k s => (s.toJson inner).map fun v => (k, v)) (g := id)
    (h.check hdistinct) (fun f hf hcheck => ?_) hdistinct fun _ _ => List.not_mem_nil
  · have hbuild : r.ofMembers inner (Source.ofFields fs) = .ok a := h.builds
    rw [List.map_id] at hwalk
    simp only [Source.ofJson, Record.openEnded, hopen, hwalk, hbuild, bind, Except.bind, atEnd,
      ObjectEnd.reading?, pure, Except.pure]
  · rw [hothers f hf (check?_eq_none.mp hcheck)]
    rfl

/-- A record that knows all the members that another one left over. -/
theorem ofRest (h : r.Accepts .value fs a) (hdistinct : (fs.map Prod.fst).Nodup) :
    r.ofRest fs = .ok a := by
  have hwalk := walk_ofFields (fun _ _ => .ok ()) (g := fun _ => ()) (h.check hdistinct)
    (fun _ _ _ => rfl) hdistinct fun _ _ => List.not_mem_nil
  have hbuild : r.ofMembers .value (Source.ofFields fs) = .ok a := h.builds
  simp only [Record.ofRest, hwalk, hbuild, bind, Except.bind]

end Accepts

/-! ## Where answers come from -/

/-- Whatever a record finds under the names of its fields, if that satisfies a predicate then the answer is
as described. -/
def Takes (r : Record α) (o : Origin) (T : String → Source → Prop) (Q : α → Prop) : Prop :=
  ∀ access : Access, access.origin = o → (∀ name s, access.find? name = some s → T name s) →
    ∀ a, r.build access = .ok a → Q a

/-- Strings of a source satisfy a predicate. -/
def textsAre (T : String → String → Prop) (name : String) (s : Source) : Prop :=
  ∀ t, s = .text (.ok t) → T name t

namespace Takes

variable {o : Origin} {T : String → Source → Prop} {Q : α → Prop} {R : β → Prop}

theorem map {r : Record α} {f : α → β} (hf : ∀ a, Q a → R (f a)) (h : r.Takes o T Q) :
    (f <$> r).Takes o T R := by
  intro access horigin hfind b hb
  change (r.build access).map f = _ at hb
  cases hr : r.build access with
  | error e =>
    rw [hr] at hb
    exact nomatch hb
  | ok a =>
    rw [hr] at hb
    cases hb
    exact hf a (h access horigin hfind a hr)

theorem seq {f : Record (α → β)} {r : Record α} (hf : f.Takes o T fun g => ∀ a, Q a → R (g a))
    (hr : r.Takes o T Q) : (f <*> r).Takes o T R := by
  intro access horigin hfind b hb
  obtain ⟨g, hg, hb⟩ := exists_of_bind hb
  obtain ⟨x, hx, hb⟩ := exists_of_bind hb
  cases hb
  exact hf access horigin hfind g hg x (hr access horigin hfind x hx)

theorem field {name : String} {d : Decoder α} {whenAbsent : Access → Decoded α}
    (habsent : ∀ access a, whenAbsent access = .ok a → Q a)
    (hd : ∀ source a, T name source → d o source = .ok a → Q a) :
    (Record.field name d whenAbsent).Takes o T Q := by
  intro access horigin hfind a ha
  cases hs : access.find? name with
  | none =>
    rw [build_field_absent hs] at ha
    exact habsent access a ha
  | some source =>
    rw [build_field hs, horigin] at ha
    exact hd source a (hfind name source hs) ha

theorem withDefault {name : String} {d : Decoder α} {default : α} (hdefault : Q default)
    (hd : ∀ source a, T name source → d o source = .ok a → Q a) :
    (Record.withDefault name d default).Takes o T Q :=
  field (fun _ _ ha => Except.ok.inj ha ▸ hdefault) hd

theorem string {T : String → String → Prop} {name default : String} (hdefault : T name default) :
    (Record.withDefault name .string default).Takes o (textsAre T) (T name) := by
  refine withDefault hdefault fun source s hsource hs => ?_
  cases source with
  | text t =>
    cases t with
    | error e => exact nomatch hs
    | ok t =>
      cases hs
      exact hsource s rfl
  | _ => exact absurd hs Source.mismatch_ne_ok

theorem any {r : Record α} : r.Takes o T fun _ => True := fun _ _ _ _ _ => trivial

end Takes

theorem build_of_closed {r : Record α} {fs : List (String × Json)} {title : String} {a : α}
    (ha : Json.ofJson (r.closed title) (.object fs) = .ok a) : r.build (accessTo .value fs) = .ok a := by
  obtain ⟨inner, hinner, ha⟩ := exists_of_bind ha
  cases hinner
  obtain ⟨_, -, ha⟩ := exists_of_bind ha
  obtain ⟨_, -, hbuild⟩ := exists_of_bind ha
  exact hbuild

/-- A record that reads an object finds the strings of the object. -/
theorem Takes.closed {T : String → String → Prop} {Q : α → Prop} {r : Record α}
    (h : r.Takes .value (textsAre T) Q)
    {fs : List (String × Json)} (hfs : ∀ name s, fs.lookup name = some (.string s) → T name s)
    {title : String} {a : α} (ha : Json.ofJson (r.closed title) (.object fs) = .ok a) : Q a := by
  refine h (accessTo .value fs) rfl (fun name source hsource s hs => hfs name s ?_) a (build_of_closed ha)
  change findMember (Source.ofFields fs) name = _ at hsource
  rw [findMember_ofFields] at hsource
  obtain ⟨v, hv, he⟩ := Option.map_eq_some_iff.mp hsource
  cases v with
  | string t =>
    cases he.trans hs
    exact hv
  | _ => exact nomatch he.trans hs

end Record

end Dashboard.Json
