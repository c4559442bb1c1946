import Dashboard.Proofs.Document.Triggers
/-!
# Declarations of entities

The entities that were registered are declared once each, with all actions that were registered for them under any
spelling. The declarations are sorted by their sections first, so those of a section stand together and every
section that is needed gets one head.
-/

namespace Dashboard

theorem SensorKind.rank_inj {a b : SensorKind} (h : a.rank = b.rank) : a = b := by
  cases a <;> cases b <;> simp_all [rank]

namespace SensorDecl

/-! ## Order -/

theorem notAfter_iff {a b : SensorDecl} : notAfter a b = true ↔
    a.kind.rank < b.kind.rank ∨ a.kind.rank = b.kind.rank ∧ ¬ b.id < a.id := by
  simp [notAfter]

theorem notAfter_trans (a b c : SensorDecl) (hab : notAfter a b = true) (hbc : notAfter b c = true) :
    notAfter a c = true := by
  rw [notAfter_iff] at hab hbc ⊢
  rcases hab with hab | ⟨hab, hid⟩
  · left
    omega
  · rcases hbc with hbc | ⟨hbc, hid'⟩
    · left
      omega
    · right
      refine ⟨hab.trans hbc, ?_⟩
      rw [String.not_lt] at hid hid' ⊢
      exact String.le_trans hid hid'

theorem notAfter_total (a b : SensorDecl) : (notAfter a b || notAfter b a) = true := by
  rw [Bool.or_eq_true, notAfter_iff, notAfter_iff]
  rcases Nat.lt_trichotomy a.kind.rank b.kind.rank with h | h | h
  · exact .inl (.inl h)
  · by_cases hid : b.id < a.id
    · exact .inr (.inr ⟨h.symm, String.lt_asymm hid⟩)
    · exact .inl (.inr ⟨h, hid⟩)
  · exact .inr (.inl h)

/-- The sections of declarations come in their order. -/
def InSections (ds : List SensorDecl) : Prop := ds.Pairwise fun a b => a.kind.rank ≤ b.kind.rank

theorem inSections_ofTriggers (t : Triggers) : InSections (ofTriggers t) := by
  refine (List.pairwise_mergeSort notAfter_trans notAfter_total _).imp fun {a b} hab => ?_
  rcases notAfter_iff.mp hab with h | ⟨h, -⟩
  · exact Nat.le_of_lt h
  · exact Nat.le_of_eq h

/-- Between two declarations of a section there are none of another section. -/
theorem InSections.between {front middle back : List SensorDecl} {d e : SensorDecl}
    (h : InSections (front ++ d :: middle ++ e :: back)) (hkind : d.kind = e.kind) :
    ∀ m ∈ middle, m.kind = d.kind := by
  intro m hm
  rw [InSections, List.pairwise_append] at h
  obtain ⟨hfront, -, hback⟩ := h
  have hlow : d.kind.rank ≤ m.kind.rank := List.rel_of_pairwise_cons (List.pairwise_append.mp hfront).2.1 hm
  have hhigh : m.kind.rank ≤ e.kind.rank := hback m (by simp [hm]) e List.mem_cons_self
  rw [← hkind] at hhigh
  exact SensorKind.rank_inj (Nat.le_antisymm hhigh hlow)

/-! ## Section heads -/

/-- The line over the declarations of a section. -/
def head (kind : SensorKind) : String := kind.sectionName ++ ":"

theorem head_inj {a b : SensorKind} (h : head a = head b) : a = b := by
  revert h
  cases a <;> cases b <;> decide

theorem head_ne_of_space {kind : SensorKind} {l : String} (h : l.toList.head? = some ' ') : l ≠ head kind := by
  rintro rfl
  revert h
  cases kind <;> decide

theorem head_ne_empty (kind : SensorKind) : head kind ≠ "" := by
  cases kind <;> decide

theorem count_bodyLines (kind : SensorKind) (d : SensorDecl) : (bodyLines d).count (head kind) = 0 := by
  refine List.count_eq_zero.mpr fun hmem => ?_
  have hspace : ∀ l ∈ bodyLines d, l.toList.head? = some ' ' := by
    unfold bodyLines actionLines
    cases d.actions <;> simp
  exact head_ne_of_space (hspace _ hmem) rfl

theorem count_headLines (kind own : SensorKind) (previous : Option SensorKind) :
    (headLines previous own).count (head kind) = if own = kind ∧ previous ≠ some kind then 1 else 0 := by
  have hown : (head own == head kind) = decide (own = kind) := by
    by_cases h : own = kind
    · simp [h]
    · have hne : head own ≠ head kind := fun he => h (head_inj he)
      simp [h, hne]
  have hline : own.sectionName ++ ":" = head own := rfl
  cases previous with
  | none =>
    rw [headLines, hline, List.count_singleton, hown]
    simp
  | some k =>
    rw [headLines, hline]
    by_cases hk : k = own
    · by_cases h : own = kind <;> simp [hk, h]
    · rw [if_neg hk, List.count_cons, List.count_singleton, hown]
      by_cases h : own = kind
      · subst h
        simp [hk, head_ne_empty]
      · simp [h, head_ne_empty]

/-- A section gets a head if one of the declarations belongs to it and the one before them does not. -/
theorem count_linesFrom (kind : SensorKind) {ds : List SensorDecl} (h : InSections ds)
    (previous : Option SensorKind) (hprevious : ∀ p, previous = some p → ∀ d ∈ ds, p.rank ≤ d.kind.rank) :
    (linesFrom previous ds).count (head kind) =
      if (∃ d ∈ ds, d.kind = kind) ∧ previous ≠ some kind then 1 else 0 := by
  induction ds generalizing previous with
  | nil =>
    cases previous with
    | none => rfl
    | some p => simp [linesFrom, head_ne_empty]
  | cons d ds ih =>
    obtain ⟨hd, hds⟩ := List.pairwise_cons.mp h
    have hrest := ih hds (some d.kind) fun p hp e he => Option.some.inj hp ▸ hd e he
    rw [linesFrom, List.count_append, List.count_append, count_headLines, count_bodyLines, hrest]
    by_cases hkind : d.kind = kind
    · simp [hkind]
    · by_cases hlater : ∃ e ∈ ds, e.kind = kind
      · -- the section begins after `d`, so it was not the previous one
        have hnew : previous ≠ some kind := by
          intro hp
          obtain ⟨e, he, rfl⟩ := hlater
          have hlow := hprevious _ hp d List.mem_cons_self
          exact hkind (SensorKind.rank_inj (Nat.le_antisymm (hd e he) hlow))
        simp [hkind, hlater, hnew]
      · simp [hkind, hlater]

theorem count_sectionLines (kind : SensorKind) {ds : List SensorDecl} (h : InSections ds) :
    (sectionLines ds).count (head kind) = if ∃ d ∈ ds, d.kind = kind then 1 else 0 := by
  rw [sectionLines, count_linesFrom kind h none (by simp)]
  simp

/-! ## What is declared -/

/-- Declarations of the entities that registrations name, each once, with the actions registered for it. -/
structure AreOf (cs : List Registration) (ds : List SensorDecl) : Prop where
  once : (ds.map SensorDecl.entityId).Nodup
  entities : ∀ e, e ∈ ds.map SensorDecl.entityId ↔ ∃ c ∈ cs, c.entity? = some e
  kind : ∀ d ∈ ds, d.kind = .of d.entityId
  id : ∀ d ∈ ds, d.id = Entity.componentId d.entityId
  actionsOnce : ∀ d ∈ ds, d.actions.Nodup
  actions : ∀ d ∈ ds, ∀ a, a ∈ d.actions ↔ ∃ c ∈ cs, c.entity? = some d.entityId ∧ c.action? = some a
  together : ∀ front d middle e back, ds = front ++ d :: middle ++ e :: back → d.kind = e.kind →
    ∀ m ∈ middle, m.kind = d.kind

section ofTriggers

variable {cs : List Registration} {E : Set String} {t : Triggers}

theorem exists_of_mem_ofTriggers (ht : t.IsFrom E) {d : SensorDecl} (hd : d ∈ ofTriggers t) :
    ∃ e actions, t.actions? e = some actions ∧ d = of e (Table.keys actions) := by
  obtain ⟨⟨e, actions⟩, he, rfl⟩ := List.mem_map.mp (List.mem_mergeSort.mp hd)
  exact ⟨e, actions, ht.mem_iff.mp he, rfl⟩

theorem perm_entityIds (t : Triggers) :
    ((ofTriggers t).map SensorDecl.entityId).Perm (Table.keys (t.numeric ++ t.text)) := by
  have hperm := (List.mergeSort_perm ((t.numeric ++ t.text).map fun e => of e.1 (Table.keys e.2)) notAfter).map
    SensorDecl.entityId
  rw [List.map_map] at hperm
  exact hperm

theorem mem_entityIds (ht : t.IsFrom E) (e : String) :
    e ∈ (ofTriggers t).map SensorDecl.entityId ↔ (t.actions? e).isSome = true := by
  rw [(perm_entityIds t).mem_iff, Option.isSome_iff_exists]
  constructor
  · intro he
    obtain ⟨⟨e, actions⟩, hmem, rfl⟩ := List.mem_map.mp he
    exact ⟨actions, ht.mem_iff.mp hmem⟩
  · rintro ⟨actions, hactions⟩
    exact List.mem_map_of_mem (ht.mem_iff.mpr hactions)

theorem areOf_ofTriggers (ht : t.IsFrom E) (hcs : t.Records cs) : AreOf cs (ofTriggers t) where
  once := (perm_entityIds t).nodup_iff.mpr ht.nodup_keys
  entities := fun e => (mem_entityIds ht e).trans (hcs.known e)
  kind := by
    intro d hd
    obtain ⟨e, actions, -, rfl⟩ := exists_of_mem_ofTriggers ht hd
    rfl
  id := by
    intro d hd
    obtain ⟨e, actions, -, rfl⟩ := exists_of_mem_ofTriggers ht hd
    rfl
  actionsOnce := by
    intro d hd
    obtain ⟨e, actions, he, rfl⟩ := exists_of_mem_ofTriggers ht hd
    exact Table.nodup_keys (hcs.sorted e actions he)
  actions := by
    intro d hd
    obtain ⟨e, actions, he, rfl⟩ := exists_of_mem_ofTriggers ht hd
    exact hcs.actions e actions he
  together := by
    intro front d middle e back hds
    exact InSections.between (hds ▸ inSections_ofTriggers t)

end ofTriggers

/-- Whatever is registered in whatever order and spelling: no entity is in both sections of the triggers, the
declarations are those of the registered entities, each once and with its distinct actions, those of a section
stand together under one head, and the same registrations in another order give the same triggers. -/
theorem areOf_ofRegistrations (cs : List Registration) :
    let t := Triggers.ofRegistrations cs
    let ds := ofTriggers t
    (∀ e ∈ Table.keys t.numeric, e ∉ Table.keys t.text) ∧ AreOf cs ds ∧
      (∀ kind, (sectionLines ds).count (head kind) = if ∃ d ∈ ds, d.kind = kind then 1 else 0) ∧
      ∀ cs', cs.Perm cs' → Triggers.ofRegistrations cs' = t := by
  have hfrom := Triggers.isFrom_ofRegistrations cs
  have hrecords := Triggers.records_ofRegistrations cs
  exact ⟨fun _ he => hfrom.not_mem_text he, areOf_ofTriggers hfrom hrecords,
    fun kind => count_sectionLines kind (inSections_ofTriggers _), fun _ h => Triggers.ofRegistrations_perm h⟩

end SensorDecl

end Dashboard
