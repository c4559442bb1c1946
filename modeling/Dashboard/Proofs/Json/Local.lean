import Dashboard.Proofs.Json.Records
/-!
# Members that nobody asks for

A record finds its fields by their names. Whatever else is in an object is passed over, so an object without it reads
the same: the same answer or the same error.
-/

namespace Dashboard.Json.Record

variable {α β : Type}

/-- What a record builds depends on what is found under its own names only. -/
def IsLocal (r : Record α) : Prop :=
  ∀ (access : Access) (find? : String → Option Source), (∀ name ∈ r.names, find? name = access.find? name) →
    r.build { access with find? } = r.build access

namespace IsLocal

theorem map {r : Record α} (f : α → β) (h : r.IsLocal) : (f <$> r).IsLocal := by
  intro access find? hfind
  change (r.build { access with find? }).map f = (r.build access).map f
  rw [h access find? hfind]

theorem seq {f : Record (α → β)} {r : Record α} (hf : f.IsLocal) (hr : r.IsLocal) : (f <*> r).IsLocal := by
  intro access find? hfind
  have hnames : ∀ name, name ∈ (f <*> r).names ↔ name ∈ f.names ∨ name ∈ r.names := fun name => by
    change name ∈ (f.fields ++ r.fields).map FieldCheck.name ↔ _
    rw [List.map_append, List.mem_append]
    rfl
  change (do
    let g ← f.build { access with find? }
    let x ← r.build { access with find? }
    return g x) = (do
    let g ← f.build access
    let x ← r.build access
    return g x)
  rw [hf access find? fun name hname => hfind name ((hnames name).mpr (.inl hname)),
    hr access find? fun name hname => hfind name ((hnames name).mpr (.inr hname))]

theorem withDefault {name : String} {d : Decoder α} {default : α} :
    (Record.withDefault name d default).IsLocal := by
  intro access find? hfind
  have hname : find? name = access.find? name := hfind name List.mem_cons_self
  simp only [Record.withDefault, field, hname]

end IsLocal

/-- The members that a record knows. -/
def known (r : Record α) (fs : List (String × Json)) : List (String × Json) :=
  fs.filter fun f => f.1 ∈ r.names

theorem lookup_known {r : Record α} {name : String} (h : name ∈ r.names) (fs : List (String × Json)) :
    (r.known fs).lookup name = fs.lookup name := by
  induction fs with
  | nil => rfl
  | cons f fs ih =>
    obtain ⟨k, v⟩ := f
    unfold known at ih ⊢
    by_cases hk : name = k
    · subst hk
      simp [h]
    · have hne : (name == k) = false := by simpa using hk
      by_cases hknown : k ∈ r.names <;> simp [hknown, hne, List.lookup_cons, ih]

theorem walk_known (r : Record α) (o : Origin) (seen : List String) (fs : List (String × Json)) :
    (r.walk o (fun _ s => s.skip) seen (Source.ofFields (r.known fs))).map (fun _ => ()) =
      (r.walk o (fun _ s => s.skip) seen (Source.ofFields fs)).map fun _ => () := by
  induction fs generalizing seen with
  | nil => rfl
  | cons f fs ih =>
    obtain ⟨k, v⟩ := f
    unfold known at ih ⊢
    rw [Source.ofFields, walk]
    cases hcheck : r.check? k with
    | none =>
      have hk : k ∉ r.names := check?_eq_none.mp hcheck
      rw [List.filter_cons_of_neg (by simpa using hk), ih]
      simp only [orFault, bind, Except.bind, hcheck, Source.skip_ofJson]
      cases r.walk o (fun _ s => s.skip) seen (Source.ofFields fs) <;> rfl
    | some check =>
      have hk : k ∈ r.names := by
        by_contra hk
        rw [check?_eq_none.mpr hk] at hcheck
        cases hcheck
      rw [List.filter_cons_of_pos (by simpa using hk), Source.ofFields, walk]
      simp only [orFault, bind, Except.bind, hcheck]
      split
      · rfl
      · cases check o (Source.ofJson v) with
        | error e => rfl
        | ok _ => exact ih (k :: seen)

/-- An object without the members that a record does not know reads the same. -/
theorem closed_known {r : Record α} (h : r.IsLocal) (title : String) (fs : List (String × Json)) :
    Json.ofJson (r.closed title) (.object (r.known fs)) = Json.ofJson (r.closed title) (.object fs) := by
  have hbuild : r.ofMembers .value (Source.ofFields (r.known fs)) = r.ofMembers .value (Source.ofFields fs) :=
    h (accessTo .value fs) _ fun name hname => by
      simp only [accessTo, findMember_ofFields, lookup_known hname]
  have hwalk := walk_known r .value [] fs
  change (do
    let _ ← r.walk .value (fun _ s => s.skip) [] (Source.ofFields (r.known fs))
    r.ofMembers .value (Source.ofFields (r.known fs))) = (do
    let _ ← r.walk .value (fun _ s => s.skip) [] (Source.ofFields fs)
    r.ofMembers .value (Source.ofFields fs))
  rw [hbuild]
  cases hleft : r.walk .value (fun _ s => s.skip) [] (Source.ofFields (r.known fs)) <;>
    cases hright : r.walk .value (fun _ s => s.skip) [] (Source.ofFields fs) <;>
    simp_all [Except.map, bind, Except.bind]

end Dashboard.Json.Record
