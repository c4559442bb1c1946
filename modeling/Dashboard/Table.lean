/-!
# Tables in key order

A table lists its entries by increasing key, each key once. Entering a value under a key that is
present replaces the value and keeps the place. Entering a value under a key changes what is found
under that key only, and leaves the table in order.
-/

namespace Dashboard

abbrev Table (α : Type) := List (String × α)

namespace Table

variable {α : Type}

def find? (t : Table α) (key : String) : Option α := t.lookup key

def hasKey (t : Table α) (key : String) : Bool := (t.lookup key).isSome

def put (key : String) (value : α) : Table α → Table α
  | [] => [(key, value)]
  | (k, v) :: t =>
    if key < k then (key, value) :: (k, v) :: t
    else if key = k then (key, value) :: t
    else (k, v) :: put key value t

/-- Enters a value unless the key is present. -/
def putNew (key : String) (value : α) (t : Table α) : Table α :=
  if t.hasKey key then t else t.put key value

/-- Enters all values of a list; of two under one key the later counts. -/
def ofList (entries : List (String × α)) : Table α :=
  entries.foldl (fun t e => t.put e.1 e.2) []

def keys (t : Table α) : List String := t.map Prod.fst

def values (t : Table α) : List α := t.map Prod.snd

/-- The order that every table built by `put` has. -/
def Sorted (t : Table α) : Prop := (keys t).Pairwise (· < ·)

theorem find?_put_self (key : String) (value : α) (t : Table α) :
    find? (put key value t) key = some value := by
  induction t with
  | nil => simp [find?, put]
  | cons e t ih =>
    obtain ⟨k, v⟩ := e
    simp only [put]
    split
    · simp [find?]
    · split
      · simp [find?]
      · rename_i hne
        have hk : (key == k) = false := by simpa using hne
        simpa [find?, List.lookup_cons, hk] using ih

theorem find?_put_of_ne {key other : String} (value : α) (t : Table α) (h : other ≠ key) :
    find? (put key value t) other = find? t other := by
  have ho : (other == key) = false := by simpa using h
  induction t with
  | nil => simp [find?, put, List.lookup_cons, ho]
  | cons e t ih =>
    obtain ⟨k, v⟩ := e
    simp only [put]
    split
    · simp [find?, List.lookup_cons, ho]
    · split
      · rename_i hk
        subst hk
        simp [find?, List.lookup_cons, ho]
      · cases hk : other == k <;> simp_all [find?, List.lookup_cons]

theorem mem_keys_put {key x : String} {value : α} {t : Table α} :
    x ∈ keys (put key value t) ↔ x = key ∨ x ∈ keys t := by
  induction t with
  | nil => simp [keys, put]
  | cons e t ih =>
    obtain ⟨k, v⟩ := e
    simp only [put]
    split
    · simp [keys]
    · split
      · rename_i hk
        subst hk
        simp [keys]
      · simp only [keys, List.map_cons, List.mem_cons] at ih ⊢
        rw [ih]
        exact or_left_comm

theorem sorted_put (key : String) (value : α) {t : Table α} (h : Sorted t) :
    Sorted (put key value t) := by
  induction t with
  | nil => simp [Sorted, keys, put]
  | cons e t ih =>
    obtain ⟨k, v⟩ := e
    have hk : ∀ x ∈ keys t, k < x := (List.pairwise_cons.mp h).1
    have ht : Sorted t := (List.pairwise_cons.mp h).2
    simp only [put]
    split
    · rename_i hlt
      refine List.pairwise_cons.mpr ⟨fun x hx => ?_, h⟩
      rcases List.mem_cons.mp hx with rfl | hx
      · exact hlt
      · exact String.lt_trans hlt (hk x hx)
    · rename_i hnot
      split
      · rename_i he
        subst he
        exact h
      · rename_i hne
        refine List.pairwise_cons.mpr ⟨fun x hx => ?_, ih ht⟩
        rcases mem_keys_put.mp hx with rfl | hx
        · exact Std.lt_of_le_of_ne (Std.not_lt.mp hnot) (Ne.symm hne)
        · exact hk x hx

theorem sorted_ofList (entries : List (String × α)) : Sorted (ofList entries) := by
  suffices ∀ t : Table α, Sorted t → Sorted (entries.foldl (fun t e => put e.1 e.2 t) t) from
    this [] List.Pairwise.nil
  induction entries with
  | nil => exact fun t h => h
  | cons e entries ih => exact fun t h => ih _ (sorted_put e.1 e.2 h)

end Table

end Dashboard
