import Dashboard.Table
import Mathlib.Data.List.Nodup
/-!
# The entries of tables

What a table holds after values were entered: what was entered and what it held before. Of the
entries of a list the last one under a key is found.
-/

namespace Dashboard.Table

variable {α : Type}

theorem mem_put {key : String} {value : α} {t : Table α} {e : String × α}
    (h : e ∈ put key value t) : e = (key, value) ∨ e ∈ t := by
  induction t with
  | nil => exact .inl (List.mem_singleton.mp h)
  | cons e' t ih =>
    obtain ⟨k, v⟩ := e'
    simp only [put] at h
    split at h
    · exact List.mem_cons.mp h
    · split at h
      · exact (List.mem_cons.mp h).imp_right (List.mem_cons_of_mem _)
      · rcases List.mem_cons.mp h with rfl | h
        · exact .inr List.mem_cons_self
        · exact (ih h).imp_right (List.mem_cons_of_mem _)

theorem mem_putNew {key : String} {value : α} {t : Table α} {e : String × α}
    (h : e ∈ putNew key value t) : e = (key, value) ∨ e ∈ t := by
  unfold putNew at h
  split at h
  · exact .inr h
  · exact mem_put h

theorem mem_keys_putNew {key x : String} {value : α} {t : Table α} :
    x ∈ keys (putNew key value t) ↔ x = key ∨ x ∈ keys t := by
  unfold putNew
  split
  · rename_i h
    obtain ⟨v, hv⟩ := Option.isSome_iff_exists.mp h
    obtain ⟨front, back, rfl, -⟩ := List.lookup_eq_some_iff.mp hv
    have hmem : key ∈ keys (front ++ (key, v) :: back) :=
      List.mem_map.mpr ⟨(key, v), List.mem_append_right front List.mem_cons_self, rfl⟩
    exact ⟨.inr, fun hx => hx.elim (fun he => he ▸ hmem) id⟩
  · exact mem_keys_put

theorem mem_of_find? {t : Table α} {key : String} {value : α} (h : find? t key = some value) :
    (key, value) ∈ t := by
  obtain ⟨front, back, rfl, -⟩ := List.lookup_eq_some_iff.mp h
  exact List.mem_append_right front List.mem_cons_self

theorem mem_ofList {entries : List (String × α)} {e : String × α} (h : e ∈ ofList entries) :
    e ∈ entries := by
  suffices ∀ t : Table α, e ∈ entries.foldl (fun t e => put e.1 e.2 t) t → e ∈ entries ∨ e ∈ t from
    (this [] h).resolve_right List.not_mem_nil
  clear h
  induction entries with
  | nil => exact fun t h => .inr h
  | cons e' entries ih =>
    intro t h
    rcases ih _ h with h | h
    · exact .inl (List.mem_cons_of_mem e' h)
    · exact (mem_put h).elim (fun he => .inl (he ▸ List.mem_cons_self)) .inr

theorem find?_foldl_put (entries : List (String × α)) (t : Table α) (key : String) :
    find? (entries.foldl (fun t e => put e.1 e.2 t) t) key =
      (entries.reverse.lookup key).or (find? t key) := by
  induction entries generalizing t with
  | nil => rfl
  | cons e entries ih =>
    obtain ⟨k, v⟩ := e
    have hput : find? (put k v t) key = (List.lookup key [(k, v)]).or (find? t key) := by
      by_cases hk : key = k
      · subst hk
        simp [find?_put_self]
      · have hne : (key == k) = false := by simpa using hk
        simp [find?_put_of_ne v t hk, List.lookup_cons, hne]
    rw [List.foldl_cons, ih, hput, List.reverse_cons, List.lookup_append, Option.or_assoc]

theorem find?_ofList (entries : List (String × α)) (key : String) :
    find? (ofList entries) key = entries.reverse.lookup key :=
  (find?_foldl_put entries [] key).trans Option.or_none

theorem sorted_foldl_put (entries : List (String × α)) {t : Table α} (h : Sorted t) :
    Sorted (entries.foldl (fun t e => put e.1 e.2 t) t) := by
  induction entries generalizing t with
  | nil => exact h
  | cons e entries ih => exact ih (sorted_put e.1 e.2 h)

/-! ## Distinct keys -/

theorem map_put {β : Type} (f : α → β) (key : String) (value : α) (t : Table α) :
    (put key value t).map (fun e => (e.1, f e.2)) =
      put key (f value) (t.map fun e => (e.1, f e.2)) := by
  induction t with
  | nil => rfl
  | cons e t ih =>
    simp only [put, List.map_cons]
    split
    · rfl
    · split
      · rfl
      · rw [List.map_cons, ih]

theorem map_ofList {β : Type} (f : α → β) (entries : List (String × α)) :
    (ofList entries).map (fun e => (e.1, f e.2)) = ofList (entries.map fun e => (e.1, f e.2)) := by
  suffices ∀ t : Table α, (entries.foldl (fun t e => put e.1 e.2 t) t).map (fun e => (e.1, f e.2)) =
      (entries.map fun e => (e.1, f e.2)).foldl (fun t e => put e.1 e.2 t)
        (t.map fun e => (e.1, f e.2)) from this []
  induction entries with
  | nil => exact fun t => rfl
  | cons e entries ih =>
    intro t
    rw [List.foldl_cons, ih, map_put, List.map_cons, List.foldl_cons]

theorem lookup_of_mem {entries : List (String × α)} (h : (entries.map Prod.fst).Nodup)
    {key : String} {value : α} (hm : (key, value) ∈ entries) : entries.lookup key = some value := by
  induction entries with
  | nil => exact absurd hm List.not_mem_nil
  | cons e entries ih =>
    obtain ⟨k, v⟩ := e
    obtain ⟨hnot, hnodup⟩ := List.nodup_cons.mp h
    rw [List.lookup_cons]
    rcases List.mem_cons.mp hm with he | hm
    · cases he
      simp
    · have hne : (key == k) = false := by
        have hkey : key ≠ k := fun he => hnot (he ▸ List.mem_map.mpr ⟨(key, value), hm, rfl⟩)
        simpa using hkey
      rw [hne]
      exact ih hnodup hm

theorem lookup_of_unique {entries : List (String × α)} {key : String} {value : α}
    (hm : (key, value) ∈ entries) (h : ∀ other, (key, other) ∈ entries → other = value) :
    entries.lookup key = some value := by
  cases hk : entries.lookup key with
  | none =>
    have hne := List.lookup_eq_none_iff.mp hk (key, value) hm
    simp at hne
  | some other => rw [h other (mem_of_find? hk)]

theorem nodup_keys {t : Table α} (h : Sorted t) : (keys t).Nodup := by
  refine List.Pairwise.imp (fun {a b} hlt he => ?_) h
  subst he
  exact String.lt_irrefl a hlt

theorem find?_of_mem {t : Table α} (h : Sorted t) {key : String} {value : α} (hm : (key, value) ∈ t) :
    find? t key = some value := lookup_of_mem (nodup_keys h) hm

theorem lookup_reverse {entries : List (String × α)} (h : (entries.map Prod.fst).Nodup)
    (key : String) : entries.reverse.lookup key = entries.lookup key := by
  have hreverse : (entries.reverse.map Prod.fst).Nodup := by
    rw [List.map_reverse]
    exact List.nodup_reverse.mpr h
  cases hk : entries.lookup key with
  | none =>
    rw [List.lookup_eq_none_iff] at hk ⊢
    exact fun e he => hk e (List.mem_reverse.mp he)
  | some v => exact lookup_of_mem hreverse (List.mem_reverse.mpr (mem_of_find? hk))

theorem find?_ofList_of_mem {entries : List (String × α)} (h : (entries.map Prod.fst).Nodup)
    {key : String} {value : α} (hm : (key, value) ∈ entries) :
    find? (ofList entries) key = some value := by
  rw [find?_ofList, lookup_reverse h]
  exact lookup_of_mem h hm

theorem mem_ofList_iff {entries : List (String × α)} (h : (entries.map Prod.fst).Nodup)
    {e : String × α} : e ∈ ofList entries ↔ e ∈ entries :=
  ⟨mem_ofList, fun hm => mem_of_find? (find?_ofList_of_mem h hm)⟩

theorem eq_of_mem_iff {t u : Table α} (ht : Sorted t) (hu : Sorted u) (h : ∀ e, e ∈ t ↔ e ∈ u) :
    t = u := by
  have hperm : List.Perm t u := (List.perm_ext_iff_of_nodup (List.Nodup.of_map _ (nodup_keys ht))
    (List.Nodup.of_map _ (nodup_keys hu))).mpr h
  have hsorted : ∀ {t : Table α}, Sorted t → List.Pairwise (fun a b => a.1 < b.1) t := fun ht =>
    List.pairwise_map.mp ht
  exact hperm.eq_of_pairwise (fun a b _ _ hab hba => absurd hab (String.lt_asymm hba))
    (hsorted ht) (hsorted hu)

theorem eq_of_find? {t u : Table α} (ht : Sorted t) (hu : Sorted u)
    (h : ∀ key, find? t key = find? u key) : t = u := by
  refine eq_of_mem_iff ht hu fun e => ⟨fun he => ?_, fun he => ?_⟩
  · exact mem_of_find? (by rw [← h, find?_of_mem ht he])
  · exact mem_of_find? (by rw [h, find?_of_mem hu he])

/-- Entries that are those of a table make up this table, in whatever order they are and however often. -/
theorem ofList_eq_of_mem_iff {entries : List (String × α)} {t : Table α} (ht : Sorted t)
    (h : ∀ e, e ∈ entries ↔ e ∈ t) : ofList entries = t := by
  refine eq_of_mem_iff (sorted_ofList entries) ht fun e => ⟨fun he => (h e).mp (mem_ofList he), fun he => ?_⟩
  refine mem_of_find? ?_
  rw [find?_ofList]
  refine lookup_of_unique (List.mem_reverse.mpr ((h e).mpr he)) fun other hother => ?_
  have hfirst := find?_of_mem ht he
  have hsecond := find?_of_mem ht ((h _).mp (List.mem_reverse.mp hother))
  exact Option.some.inj (hsecond.symm.trans hfirst)

theorem ofList_of_sorted {t : Table α} (h : Sorted t) : ofList t = t :=
  ofList_eq_of_mem_iff h fun _ => Iff.rfl

theorem find?_eq_none {t : Table α} {key : String} (h : key ∉ keys t) : find? t key = none := by
  refine List.lookup_eq_none_iff.mpr fun e he => ?_
  have hne : key ≠ e.1 := fun hk => h (hk ▸ List.mem_map_of_mem he)
  simpa using hne

end Dashboard.Table
