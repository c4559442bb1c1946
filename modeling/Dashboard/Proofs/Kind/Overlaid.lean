import Dashboard.Kind.Registry
import Dashboard.Proofs.Json.Local
/-!
# Properties over their defaults

What a schema reads of a widget are the values that its names have in the bag over the defaults. A value that is null
or equal to the default gives way to the default, and a key that is no name is not looked up.
-/

namespace Dashboard

open Json

namespace Table

variable {α : Type}

theorem find?_filter {t : Table α} (h : (keys t).Nodup) (p : String × α → Bool) (key : String) :
    find? (t.filter p) key = (find? t key).filter fun value => p (key, value) := by
  induction t with
  | nil => rfl
  | cons e t ih =>
    obtain ⟨k, v⟩ := e
    obtain ⟨hk, ht⟩ := List.nodup_cons.mp h
    have hrest := ih ht
    unfold find? at hrest ⊢
    by_cases hkey : key = k
    · subst hkey
      have hnone : t.lookup key = none := find?_eq_none hk
      by_cases hp : p (key, v) = true <;> simp [Option.filter, hp, hrest, hnone]
    · have hne : (key == k) = false := by simpa using hkey
      by_cases hp : p (k, v) = true <;> simp [List.lookup_cons, hp, hne, hrest]

end Table

namespace Bag

variable {base changes : Bag}

theorem mem_overlay {e : String × Json} (h : e ∈ overlay base changes) :
    e ∈ changes ∨ e ∈ base := by
  unfold overlay at h
  induction changes generalizing base with
  | nil => exact .inr h
  | cons c changes ih =>
    rcases ih h with h | h
    · exact .inl (List.mem_cons_of_mem c h)
    · simp only at h
      split at h
      · exact .inr h
      · rcases Table.mem_put h with rfl | h
        · exact .inl List.mem_cons_self
        · exact .inr h

theorem overlay_eq_foldl (base changes : Bag) : overlay base changes =
    (changes.filter fun e => !e.2.isNull).foldl (fun t e => Table.put e.1 e.2 t) base := by
  rw [List.foldl_filter]
  unfold overlay
  congr
  funext b e
  cases e.2.isNull <;> rfl

theorem sorted_overlay (h : Table.Sorted base) : Table.Sorted (overlay base changes) := by
  rw [overlay_eq_foldl]
  exact Table.sorted_foldl_put _ h

theorem find?_overlay (h : (Table.keys changes).Nodup) (name : String) : Table.find? (overlay base changes) name =
    ((Table.find? changes name).filter fun v => !v.isNull).or (Table.find? base name) := by
  have hkept : ((changes.filter fun e => !e.2.isNull).map Prod.fst).Nodup :=
    h.sublist (List.filter_sublist.map Prod.fst)
  rw [overlay_eq_foldl, Table.find?_foldl_put, Table.lookup_reverse hkept]
  exact congrArg (fun found => found.or (Table.find? base name)) (Table.find?_filter h (fun e => !e.2.isNull) name)

end Bag

namespace Schema

variable {P : Type} {w back : Widget}

/-- A schema that asks for the properties that it has defaults for, and for no others. -/
structure IsLocal (s : Schema P) : Prop where
  record : s.record.IsLocal
  names : (Table.keys s.defaults).Perm s.record.names

/-- Widgets whose properties come to the same over the defaults read the same, down to the error. -/
theorem IsLocal.read_congr {s : Schema P} (h : s.IsLocal) (hid : back.id = w.id)
    (hprops : ∀ name ∈ Table.keys s.defaults,
      Table.find? (Bag.overlay s.defaults back.props) name = Table.find? (Bag.overlay s.defaults w.props) name) :
    s.read back = s.read w := by
  have hdefaults : Table.Sorted s.defaults := Table.sorted_ofList _
  have hsorted : ∀ changes : Bag, Table.Sorted (s.record.known (Bag.overlay s.defaults changes)) := fun changes =>
    (Bag.sorted_overlay hdefaults).sublist (List.filter_sublist.map Prod.fst)
  have hknown : s.record.known (Bag.overlay s.defaults back.props) =
      s.record.known (Bag.overlay s.defaults w.props) := by
    refine Table.eq_of_find? (hsorted _) (hsorted _) fun name => ?_
    by_cases hname : name ∈ s.record.names
    · unfold Table.find?
      rw [Record.lookup_known hname, Record.lookup_known hname]
      exact hprops name (h.names.mem_iff.mpr hname)
    · have hnone : ∀ changes, Table.find? (s.record.known (Bag.overlay s.defaults changes)) name = none :=
        fun changes => Table.find?_eq_none fun hmem => by
          obtain ⟨e, he, rfl⟩ := List.mem_map.mp hmem
          exact hname (by simpa using (List.mem_filter.mp he).2)
      rw [hnone, hnone]
  unfold read
  rw [← Record.closed_known h.record, hknown, Record.closed_known h.record, hid]

end Schema

namespace Kind

theorem Clock.isLocal : schema.IsLocal where
  record := by
    repeat apply Record.IsLocal.seq
    apply Record.IsLocal.map
    all_goals exact .withDefault
  names := by decide

theorem TextBlock.isLocal : schema.IsLocal where
  record := by
    repeat apply Record.IsLocal.seq
    apply Record.IsLocal.map
    all_goals exact .withDefault
  names := by decide

theorem Rectangle.isLocal : schema.IsLocal where
  record := by
    repeat apply Record.IsLocal.seq
    apply Record.IsLocal.map
    all_goals exact .withDefault
  names := by decide

theorem Circle.isLocal : schema.IsLocal where
  record := by
    repeat apply Record.IsLocal.seq
    apply Record.IsLocal.map
    all_goals exact .withDefault
  names := by decide

theorem Line.isLocal : schema.IsLocal where
  record := by
    repeat apply Record.IsLocal.seq
    apply Record.IsLocal.map
    all_goals exact .withDefault
  names := by decide

theorem Chart.isLocal : schema.IsLocal where
  record := by
    repeat apply Record.IsLocal.seq
    apply Record.IsLocal.map
    all_goals exact .withDefault
  names := by decide

theorem Label.isLocal : schema.IsLocal where
  record := by
    repeat apply Record.IsLocal.seq
    apply Record.IsLocal.map
    all_goals exact .withDefault
  names := by decide

theorem Image.isLocal : schema.IsLocal where
  record := by
    repeat apply Record.IsLocal.seq
    apply Record.IsLocal.map
    all_goals exact .withDefault
  names := by decide

theorem Ellipse.isLocal : schema.IsLocal where
  record := by
    repeat apply Record.IsLocal.seq
    apply Record.IsLocal.map
    all_goals exact .withDefault
  names := by decide

end Kind

end Dashboard
