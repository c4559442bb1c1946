import Dashboard.Document.Sensor
import Dashboard.Proofs.Table
import Mathlib.Data.Set.Defs
/-!
# Registered entities

Triggers keep entities of two sections, each entity in the section it belongs to and none twice. After a sequence
of registrations they hold exactly the entities that the registrations name, under whatever spelling, and for each
of them the actions that were registered. So the order of the registrations leaves no trace.
-/

namespace Dashboard

namespace Table

variable {α : Type}

theorem find?_eq_some_iff {t : Table α} (h : Sorted t) {key : String} {value : α} :
    find? t key = some value ↔ (key, value) ∈ t :=
  ⟨mem_of_find?, find?_of_mem h⟩

/-- Tables without values are equal if they have the same keys. -/
theorem eq_of_mem_keys_iff {t u : Table Unit} (ht : Sorted t) (hu : Sorted u)
    (h : ∀ key, key ∈ keys t ↔ key ∈ keys u) : t = u := by
  have hkeys : ∀ (t : Table Unit) (e : String × Unit), e ∈ t ↔ e.1 ∈ keys t := by
    rintro t ⟨key, ⟨⟩⟩
    refine ⟨List.mem_map_of_mem, fun hkey => ?_⟩
    obtain ⟨⟨key, ⟨⟩⟩, hmem, rfl⟩ := List.mem_map.mp hkey
    exact hmem
  exact eq_of_mem_iff ht hu fun e => by rw [hkeys, hkeys, h]

end Table

namespace Triggers

/-- The actions of an entity in the section that it belongs to. -/
def actions? (t : Triggers) (entity : String) : Option (Table Unit) :=
  if Entity.isText entity then t.text.find? entity else t.numeric.find? entity

theorem actions?_change (t : Triggers) (raw entity : String) (f : Table Unit → Table Unit) :
    (t.change raw f).actions? entity =
      if Entity.normalize? raw = some entity then some (f ((t.actions? entity).getD [])) else t.actions? entity := by
  unfold change actions?
  cases hraw : Entity.normalize? raw with
  | none => simp
  | some e =>
    by_cases he : e = entity
    · subst he
      cases htext : Entity.isText e <;> simp [htext, Table.find?_put_self]
    · have hne : entity ≠ e := Ne.symm he
      cases htext : Entity.isText e <;> simp [htext, he, Table.find?_put_of_ne _ _ hne]

/-- Entities of a set, each of them in the section it belongs to and none of them twice. -/
structure IsFrom (E : Set String) (t : Triggers) : Prop where
  numericSorted : Table.Sorted t.numeric
  textSorted : Table.Sorted t.text
  numeric : ∀ e ∈ Table.keys t.numeric, e ∈ E ∧ Entity.isText e = false
  text : ∀ e ∈ Table.keys t.text, e ∈ E ∧ Entity.isText e = true

variable {E : Set String} {t : Triggers}

theorem isFrom_empty (E : Set String) : IsFrom E {} where
  numericSorted := List.Pairwise.nil
  textSorted := List.Pairwise.nil
  numeric := fun _ he => absurd he List.not_mem_nil
  text := fun _ he => absurd he List.not_mem_nil

namespace IsFrom

theorem change (h : t.IsFrom E) {raw : String} (hE : ∀ e, Entity.normalize? raw = some e → e ∈ E)
    (f : Table Unit → Table Unit) : (t.change raw f).IsFrom E := by
  unfold Triggers.change
  cases hraw : Entity.normalize? raw with
  | none => exact h
  | some entity =>
    have hmem : entity ∈ E := hE entity hraw
    by_cases htext : Entity.isText entity = true
    · simp only [htext, if_true]
      refine ⟨h.numericSorted, Table.sorted_put _ _ h.textSorted, h.numeric, fun e he => ?_⟩
      rcases Table.mem_keys_put.mp he with rfl | he
      · exact ⟨hmem, htext⟩
      · exact h.text e he
    · simp only [htext]
      refine ⟨Table.sorted_put _ _ h.numericSorted, h.textSorted, fun e he => ?_, h.text⟩
      rcases Table.mem_keys_put.mp he with rfl | he
      · exact ⟨hmem, Bool.eq_false_iff.mpr htext⟩
      · exact h.numeric e he

theorem register (h : t.IsFrom E) {entity : String} (hE : entity ∈ E)
    (hentity : Entity.normalize? entity = some entity) (action : String) : (t.register entity action).IsFrom E :=
  h.change (fun _ he => Option.some.inj (hentity.symm.trans he) ▸ hE) _

theorem mem (h : t.IsFrom E) : ∀ e ∈ t.numeric ++ t.text, e.1 ∈ E :=
  List.forall_mem_append.mpr ⟨fun e he => (h.numeric e.1 (List.mem_map_of_mem he)).1,
    fun e he => (h.text e.1 (List.mem_map_of_mem he)).1⟩

theorem not_mem_text (h : t.IsFrom E) {e : String} (he : e ∈ Table.keys t.numeric) : e ∉ Table.keys t.text :=
  fun htext => Bool.false_ne_true ((h.numeric e he).2.symm.trans (h.text e htext).2)

theorem nodup_keys (h : t.IsFrom E) : (Table.keys (t.numeric ++ t.text)).Nodup := by
  rw [Table.keys, List.map_append]
  exact (Table.nodup_keys h.numericSorted).append (Table.nodup_keys h.textSorted) fun _ => h.not_mem_text

theorem find?_numeric (h : t.IsFrom E) (e : String) :
    t.numeric.find? e = if Entity.isText e then none else t.actions? e := by
  unfold actions?
  by_cases he : e ∈ Table.keys t.numeric
  · simp [(h.numeric e he).2]
  · cases Entity.isText e <;> simp [Table.find?_eq_none he]

theorem find?_text (h : t.IsFrom E) (e : String) :
    t.text.find? e = if Entity.isText e then t.actions? e else none := by
  unfold actions?
  by_cases he : e ∈ Table.keys t.text
  · simp [(h.text e he).2]
  · cases Entity.isText e <;> simp [Table.find?_eq_none he]

theorem mem_iff (h : t.IsFrom E) {e : String} {actions : Table Unit} :
    (e, actions) ∈ t.numeric ++ t.text ↔ t.actions? e = some actions := by
  rw [List.mem_append, ← Table.find?_eq_some_iff h.numericSorted, ← Table.find?_eq_some_iff h.textSorted,
    h.find?_numeric, h.find?_text]
  cases Entity.isText e <;> simp

theorem eq_of_actions? {u : Triggers} {F : Set String} (h : t.IsFrom E) (hu : u.IsFrom F)
    (heq : ∀ e, t.actions? e = u.actions? e) : t = u := by
  have hnumeric : t.numeric = u.numeric := Table.eq_of_find? h.numericSorted hu.numericSorted fun e => by
    rw [h.find?_numeric, hu.find?_numeric, heq]
  have htext : t.text = u.text := Table.eq_of_find? h.textSorted hu.textSorted fun e => by
    rw [h.find?_text, hu.find?_text, heq]
  cases t
  cases u
  simp_all

end IsFrom

end Triggers

/-! ## Sequences of registrations -/

/-- What makes an entity known: a registration with an action or a bare one. -/
inductive Registration where
  | register (entity action : String)
  | declare (entity : String)

namespace Registration

/-- The entity as it is spelled. -/
def raw : Registration → String
  | register entity _ => entity
  | declare entity => entity

/-- The entity in its normal spelling. A blank entity is none. -/
def entity? (c : Registration) : Option String := Entity.normalize? c.raw

def action? : Registration → Option String
  | register _ action => some action
  | declare _ => none

def apply (t : Triggers) : Registration → Triggers
  | register entity action => t.register entity action
  | declare entity => t.declare entity

/-- The actions of an entity together with that of a registration. -/
def enter (c : Registration) (actions : Table Unit) : Table Unit :=
  match c.action? with
  | some action => actions.put action ()
  | none => actions

variable {c : Registration} {t : Triggers} {actions : Table Unit}

theorem apply_eq (c : Registration) (t : Triggers) : c.apply t = t.change c.raw c.enter := by
  cases c <;> rfl

theorem actions?_apply (c : Registration) (t : Triggers) (e : String) : (c.apply t).actions? e =
    if c.entity? = some e then some (c.enter ((t.actions? e).getD [])) else t.actions? e := by
  rw [apply_eq, Triggers.actions?_change, entity?]

theorem isFrom_apply {E : Set String} (h : t.IsFrom E) (hE : ∀ e, c.entity? = some e → e ∈ E) :
    (c.apply t).IsFrom E := by
  rw [apply_eq]
  exact h.change hE _

theorem sorted_enter (h : Table.Sorted actions) : Table.Sorted (c.enter actions) := by
  cases c with
  | register entity action => exact Table.sorted_put action () h
  | declare entity => exact h

theorem mem_keys_enter {a : String} :
    a ∈ Table.keys (c.enter actions) ↔ c.action? = some a ∨ a ∈ Table.keys actions := by
  cases c with
  | register entity action => simp [enter, action?, Table.mem_keys_put, eq_comm]
  | declare entity => simp [enter, action?]

end Registration

namespace Triggers

def ofRegistrations (cs : List Registration) : Triggers := cs.foldl Registration.apply {}

/-- The entities that registrations name, with the actions that they name for each. -/
structure Records (cs : List Registration) (t : Triggers) : Prop where
  known : ∀ e, (t.actions? e).isSome ↔ ∃ c ∈ cs, c.entity? = some e
  sorted : ∀ e actions, t.actions? e = some actions → Table.Sorted actions
  actions : ∀ e actions, t.actions? e = some actions →
    ∀ a, a ∈ Table.keys actions ↔ ∃ c ∈ cs, c.entity? = some e ∧ c.action? = some a

variable {cs : List Registration} {t : Triggers}

theorem records_empty : Records [] {} where
  known := fun e => by simp [actions?, Table.find?]
  sorted := fun e actions h => by simp [actions?, Table.find?] at h
  actions := fun e actions h => by simp [actions?, Table.find?] at h

namespace Records

theorem sorted_getD (h : t.Records cs) (e : String) : Table.Sorted ((t.actions? e).getD []) := by
  cases he : t.actions? e with
  | none => exact List.Pairwise.nil
  | some actions => exact h.sorted e actions he

/-- An entity that is not known has no actions yet. -/
theorem mem_getD (h : t.Records cs) (e a : String) : a ∈ Table.keys ((t.actions? e).getD []) ↔
    ∃ c ∈ cs, c.entity? = some e ∧ c.action? = some a := by
  cases he : t.actions? e with
  | some actions => exact h.actions e actions he a
  | none =>
    refine iff_of_false List.not_mem_nil fun ⟨c, hc, hentity, _⟩ => ?_
    have hknown := (h.known e).mpr ⟨c, hc, hentity⟩
    rw [he] at hknown
    exact Bool.false_ne_true hknown

theorem apply (h : t.Records cs) (c : Registration) : (c.apply t).Records (cs ++ [c]) where
  known := by
    intro e
    rw [c.actions?_apply]
    by_cases hc : c.entity? = some e
    · simp [hc]
    · rw [if_neg hc, h.known]
      simp [hc]
  sorted := by
    intro e actions he
    rw [c.actions?_apply] at he
    by_cases hc : c.entity? = some e
    · rw [if_pos hc] at he
      exact Option.some.inj he ▸ c.sorted_enter (h.sorted_getD e)
    · rw [if_neg hc] at he
      exact h.sorted e actions he
  actions := by
    intro e actions he a
    rw [c.actions?_apply] at he
    by_cases hc : c.entity? = some e
    · rw [if_pos hc] at he
      rw [← Option.some.inj he, c.mem_keys_enter, h.mem_getD]
      simp [hc, or_and_right, exists_or, or_comm]
    · rw [if_neg hc] at he
      rw [h.actions e actions he]
      simp [hc]

theorem foldl (h : t.Records cs) (more : List Registration) :
    (more.foldl Registration.apply t).Records (cs ++ more) := by
  induction more generalizing cs t with
  | nil => rwa [List.append_nil]
  | cons c more ih =>
    have hrest := ih (h.apply c)
    rwa [List.append_assoc] at hrest

/-- What is recorded depends on what was registered only. -/
theorem actions?_eq {cs' : List Registration} {u : Triggers} (h : t.Records cs) (hu : u.Records cs')
    (hcs : ∀ c, c ∈ cs ↔ c ∈ cs') (e : String) : t.actions? e = u.actions? e := by
  have hknown : (t.actions? e).isSome = (u.actions? e).isSome := by
    rw [Bool.eq_iff_iff, h.known, hu.known]
    simp [hcs]
  cases he : t.actions? e with
  | none =>
    rw [he] at hknown
    exact (Option.not_isSome_iff_eq_none.mp (by simp [← hknown])).symm
  | some actions =>
    rw [he] at hknown
    obtain ⟨actions', he'⟩ := Option.isSome_iff_exists.mp hknown.symm
    rw [he']
    refine congrArg some (Table.eq_of_mem_keys_iff (h.sorted e actions he) (hu.sorted e actions' he') fun a => ?_)
    rw [h.actions e actions he, hu.actions e actions' he']
    simp [hcs]

end Records

theorem records_ofRegistrations (cs : List Registration) : (ofRegistrations cs).Records cs :=
  records_empty.foldl cs

theorem isFrom_ofRegistrations (cs : List Registration) :
    (ofRegistrations cs).IsFrom fun e => ∃ c ∈ cs, c.entity? = some e :=
  List.foldlRecOn (motive := IsFrom _) cs Registration.apply (isFrom_empty _)
    fun _ ht c hc => Registration.isFrom_apply ht fun _ he => ⟨c, hc, he⟩

theorem ofRegistrations_perm {cs' : List Registration} (h : cs.Perm cs') :
    ofRegistrations cs' = ofRegistrations cs :=
  (isFrom_ofRegistrations cs').eq_of_actions? (isFrom_ofRegistrations cs)
    ((records_ofRegistrations cs').actions?_eq (records_ofRegistrations cs) fun _ => h.mem_iff.symm)

end Triggers

end Dashboard
