import Dashboard.Json.Decode
import Dashboard.Proofs.Table
/-!
# What values contain

A statement about all values follows by induction on their containers. The numbers of a value that was
read are numbers of the source it was read from; its containers are nested no deeper than the text allows,
and its objects are in key order.
-/

namespace Dashboard

theorem exists_of_bind {ε α β : Type} {e : Except ε α} {f : α → Except ε β} {b : β}
    (h : (e >>= f) = .ok b) : ∃ a, e = .ok a ∧ f a = .ok b := by
  cases e with
  | error x => exact nomatch h
  | ok a => exact ⟨a, rfl, h⟩

theorem exists_of_map {ε α β : Type} {e : Except ε α} {f : α → β} {b : β} (h : e.map f = .ok b) :
    ∃ a, e = .ok a ∧ f a = b := by
  cases e with
  | error x => exact nomatch h
  | ok a => exact ⟨a, rfl, Except.ok.inj h⟩

namespace Json

open Number

theorem induction {P : Json → Prop} (null : P .null) (bool : ∀ b, P (.bool b)) (number : ∀ n, P (.number n))
    (string : ∀ s, P (.string s)) (array : ∀ vs, (∀ v ∈ vs, P v) → P (.array vs))
    (object : ∀ fs, (∀ f ∈ fs, P f.2) → P (.object fs)) (v : Json) : P v := by
  refine @Json.rec P (fun vs => ∀ v ∈ vs, P v) (fun fs => ∀ f ∈ fs, P f.2) (fun f => P f.2)
    null bool number string array object ?_ ?_ ?_ ?_ ?_ v
  · exact nofun
  · exact fun v vs hv hvs => List.forall_mem_cons.mpr ⟨hv, hvs⟩
  · exact nofun
  · exact fun f fs hf hfs => List.forall_mem_cons.mpr ⟨hf, hfs⟩
  · exact fun _ _ hv => hv

/-- All numbers in a value have a property. -/
inductive AllNumbers (P : Numeral → Prop) : Json → Prop
  | null : AllNumbers P .null
  | bool (b : Bool) : AllNumbers P (.bool b)
  | number {n : Numeral} (h : P n) : AllNumbers P (.number n)
  | string (s : String) : AllNumbers P (.string s)
  | array {vs : List Json} (h : ∀ v ∈ vs, AllNumbers P v) : AllNumbers P (.array vs)
  | object {fs : List (String × Json)} (h : ∀ f ∈ fs, AllNumbers P f.2) : AllNumbers P (.object fs)

theorem AllNumbers.and {P Q R : Numeral → Prop} {v : Json} (hp : v.AllNumbers P) (hq : v.AllNumbers Q)
    (h : ∀ n, P n → Q n → R n) : v.AllNumbers R := by
  induction hp with
  | null => exact .null
  | bool b => exact .bool b
  | string s => exact .string s
  | number hn =>
    cases hq with
    | number hn' => exact .number (h _ hn hn')
  | array _ ih =>
    cases hq with
    | array hq => exact .array fun v hv => ih v hv (hq v hv)
  | object _ ih =>
    cases hq with
    | object hq => exact .object fun f hf => ih f hf (hq f hf)

/-- The containers of a value can be opened in so much room, and its objects are in key order. -/
inductive Fits : Nat → Json → Prop
  | null (room : Nat) : Fits room .null
  | bool (room : Nat) (b : Bool) : Fits room (.bool b)
  | number (room : Nat) (n : Numeral) : Fits room (.number n)
  | string (room : Nat) (s : String) : Fits room (.string s)
  | array {room : Nat} {vs : List Json} (h : ∀ v ∈ vs, Fits (room + 1) v) : Fits (room + 2) (.array vs)
  | object {room : Nat} {fs : List (String × Json)} (hsorted : Table.Sorted fs)
    (h : ∀ f ∈ fs, Fits (room + 1) f.2) : Fits (room + 2) (.object fs)

namespace Source

theorem induction {P : Source → Prop} (null : P .null) (bool : ∀ b, P (.bool b))
    (number : ∀ n, P (.number n)) (text : ∀ s, P (.text s))
    (list : ∀ items ending, (∀ s ∈ items, P s) → P (.list items ending))
    (object : ∀ members ending, (∀ m ∈ members, P m.2) → P (.object members ending))
    (broken : ∀ b, P (.broken b)) (s : Source) : P s := by
  refine @Source.rec P (fun ss => ∀ s ∈ ss, P s) (fun ms => ∀ m ∈ ms, P m.2) (fun m => P m.2)
    null bool number text (fun ss ending h => list ss ending h) (fun ms ending h => object ms ending h)
    broken ?_ ?_ ?_ ?_ ?_ s
  · exact nofun
  · exact fun s ss hs hss => List.forall_mem_cons.mpr ⟨hs, hss⟩
  · exact nofun
  · exact fun m ms hm hms => List.forall_mem_cons.mpr ⟨hm, hms⟩
  · exact fun _ _ hs => hs

/-- All numbers in a source have a property. -/
inductive AllNumbers (P : Numeral → Prop) : Source → Prop
  | null : AllNumbers P .null
  | bool (b : Bool) : AllNumbers P (.bool b)
  | number {n : Except Fault Numeral} (h : ∀ m, n = .ok m → P m) : AllNumbers P (.number n)
  | text (s : Except Fault String) : AllNumbers P (.text s)
  | list {items : List Source} (h : ∀ s ∈ items, AllNumbers P s) (ending : ListEnd) :
    AllNumbers P (.list items ending)
  | object {members : Members} (h : ∀ m ∈ members, AllNumbers P m.2) (ending : ObjectEnd) :
    AllNumbers P (.object members ending)
  | broken (b : Broken) : AllNumbers P (.broken b)

/-! ## Values as sources -/

theorem skipItems_ofItems {vs : List Json} (h : ∀ v ∈ vs, skip (ofJson v) = .ok ()) :
    skipItems (ofItems vs) = .ok () := by
  induction vs with
  | nil => rfl
  | cons v vs ih =>
    obtain ⟨hv, hvs⟩ := List.forall_mem_cons.mp h
    rw [ofItems, skipItems, hv]
    exact ih hvs

theorem skipMembers_ofFields {fs : List (String × Json)} (h : ∀ f ∈ fs, skip (ofJson f.2) = .ok ()) :
    skipMembers (ofFields fs) = .ok () := by
  induction fs with
  | nil => rfl
  | cons f fs ih =>
    obtain ⟨hf, hfs⟩ := List.forall_mem_cons.mp h
    rw [ofFields, skipMembers, hf]
    exact ih hfs

theorem skip_ofJson (v : Json) : skip (ofJson v) = .ok () := by
  induction v using Json.induction with
  | null => rfl
  | bool b => rfl
  | number n => rfl
  | string s => rfl
  | array vs ih =>
    rw [ofJson, skip, skipItems_ofItems ih]
    rfl
  | object fs ih =>
    rw [ofJson, skip, skipMembers_ofFields ih]
    rfl

theorem toItems_ofItems {o : Origin} {vs : List Json} (h : ∀ v ∈ vs, (ofJson v).toJson o = .ok v) :
    toItems o (ofItems vs) = .ok vs := by
  induction vs with
  | nil => rfl
  | cons v vs ih =>
    obtain ⟨hv, hvs⟩ := List.forall_mem_cons.mp h
    rw [ofItems, toItems, hv, ih hvs]
    rfl

theorem toFields_ofFields {o : Origin} {fs : List (String × Json)}
    (h : ∀ f ∈ fs, (ofJson f.2).toJson o = .ok f.2) : toFields o (ofFields fs) = .ok fs := by
  induction fs with
  | nil => rfl
  | cons f fs ih =>
    obtain ⟨hf, hfs⟩ := List.forall_mem_cons.mp h
    rw [ofFields, toFields, hf, ih hfs]
    rfl

/-- A value that fits is taken from its source as it is. -/
theorem toJson_ofJson {room : Nat} {v : Json} (h : v.Fits room) :
    (ofJson v).toJson (.text room) = .ok v := by
  induction h with
  | null room => rfl
  | bool room b => rfl
  | number room n => rfl
  | string room s => rfl
  | @array room vs _ ih =>
    have henter : (Origin.text (room + 2)).enter = .ok (.text (room + 1)) := rfl
    rw [ofJson, toJson, henter]
    change (toItems (.text (room + 1)) (ofItems vs) >>= _) = _
    rw [toItems_ofItems ih]
    rfl
  | @object room fs hsorted _ ih =>
    have henter : (Origin.text (room + 2)).enter = .ok (.text (room + 1)) := rfl
    rw [ofJson, toJson, henter]
    change (toFields (.text (room + 1)) (ofFields fs) >>= _) = _
    rw [toFields_ofFields ih]
    exact congrArg (fun fs => Except.ok (Json.object fs)) (Table.ofList_of_sorted hsorted)

/-! ## Values from sources -/

theorem exists_of_toItems {o : Origin} {ss : List Source} {vs : List Json} (h : toItems o ss = .ok vs) :
    ∀ v ∈ vs, ∃ s ∈ ss, s.toJson o = .ok v := by
  induction ss generalizing vs with
  | nil =>
    cases h
    exact nofun
  | cons s ss ih =>
    obtain ⟨v, hv, h⟩ := exists_of_bind h
    obtain ⟨vs, hvs, h⟩ := exists_of_bind h
    cases h
    refine List.forall_mem_cons.mpr ⟨⟨s, List.mem_cons_self, hv⟩, fun w hw => ?_⟩
    obtain ⟨s', hs', hw⟩ := ih hvs w hw
    exact ⟨s', List.mem_cons_of_mem s hs', hw⟩

theorem exists_of_toFields {o : Origin} {ms : Members} {fs : List (String × Json)}
    (h : toFields o ms = .ok fs) : ∀ f ∈ fs, ∃ m ∈ ms, m.2.toJson o = .ok f.2 := by
  induction ms generalizing fs with
  | nil =>
    cases h
    exact nofun
  | cons m ms ih =>
    obtain ⟨k, -, h⟩ := exists_of_bind h
    obtain ⟨v, hv, h⟩ := exists_of_bind h
    obtain ⟨fs, hfs, h⟩ := exists_of_bind h
    cases h
    refine List.forall_mem_cons.mpr ⟨⟨m, List.mem_cons_self, hv⟩, fun f hf => ?_⟩
    obtain ⟨m', hm', hf⟩ := ih hfs f hf
    exact ⟨m', List.mem_cons_of_mem m hm', hf⟩

theorem exists_of_enter {room : Nat} {inner : Origin} (h : (Origin.text room).enter = .ok inner) :
    ∃ n, room = n + 2 ∧ inner = .text (n + 1) := by
  unfold Origin.enter at h
  simp only at h
  split at h
  · exact nomatch h
  · cases h
    exact ⟨room - 2, by omega, by congr 1; omega⟩

variable {P : Numeral → Prop} {s : Source} {v : Json} {o : Origin}

/-- The values of a list are those of its items, one level deeper. -/
theorem exists_of_toJson_list {items : List Source} {ending : ListEnd} (h : (list items ending).toJson o = .ok v) :
    ∃ inner vs, o.enter = .ok inner ∧ v = .array vs ∧ ∀ w ∈ vs, ∃ s ∈ items, s.toJson inner = .ok w := by
  obtain ⟨inner, hinner, hitems⟩ := exists_of_bind h
  obtain ⟨vs, hvs, hend⟩ := exists_of_bind hitems
  obtain ⟨_, -, hvalue⟩ := exists_of_bind hend
  cases hvalue
  exact ⟨inner, vs, hinner, rfl, exists_of_toItems hvs⟩

/-- The values of an object are those of its members, one level deeper. -/
theorem exists_of_toJson_object {members : Members} {ending : ObjectEnd}
    (h : (object members ending).toJson o = .ok v) :
    ∃ inner fs, o.enter = .ok inner ∧ v = .object fs ∧ Table.Sorted fs ∧
      ∀ f ∈ fs, ∃ m ∈ members, m.2.toJson inner = .ok f.2 := by
  obtain ⟨inner, hinner, hmembers⟩ := exists_of_bind h
  obtain ⟨fs, hfs, hend⟩ := exists_of_bind hmembers
  obtain ⟨_, -, hvalue⟩ := exists_of_bind hend
  cases hvalue
  exact ⟨inner, Table.ofList fs, hinner, rfl, Table.sorted_ofList fs,
    fun f hf => exists_of_toFields hfs f (Table.mem_ofList hf)⟩

theorem AllNumbers.toJson (h : s.AllNumbers P) (hv : s.toJson o = .ok v) :
    v.AllNumbers P := by
  induction h generalizing o v with
  | null =>
    cases hv
    exact .null
  | bool b =>
    cases hv
    exact .bool b
  | @number n h =>
    cases n with
    | error f => exact nomatch hv
    | ok n =>
      cases hv
      exact .number (h n rfl)
  | text t =>
    cases t with
    | error f => exact nomatch hv
    | ok t =>
      cases hv
      exact .string t
  | list _ ending ih =>
    obtain ⟨inner, vs, -, rfl, hvs⟩ := exists_of_toJson_list hv
    refine .array fun v hv => ?_
    obtain ⟨s, hs, hv⟩ := hvs v hv
    exact ih s hs hv
  | object _ ending ih =>
    obtain ⟨inner, fs, -, rfl, -, hfs⟩ := exists_of_toJson_object hv
    refine .object fun f hf => ?_
    obtain ⟨m, hm, hf⟩ := hfs f hf
    exact ih m hm hf
  | broken b => exact nomatch hv

/-- A value that was read from a text fits into the room that the text left for it. -/
theorem fits_of_toJson {room : Nat} (h : s.toJson (.text room) = .ok v) : v.Fits room := by
  induction s using Source.induction generalizing room v with
  | null =>
    cases h
    exact .null room
  | bool b =>
    cases h
    exact .bool room b
  | number n =>
    cases n with
    | error f => exact nomatch h
    | ok n =>
      cases h
      exact .number room n
  | text t =>
    cases t with
    | error f => exact nomatch h
    | ok t =>
      cases h
      exact .string room t
  | list items ending ih =>
    obtain ⟨inner, vs, hinner, rfl, hvs⟩ := exists_of_toJson_list h
    obtain ⟨n, rfl, rfl⟩ := exists_of_enter hinner
    refine .array fun v hv => ?_
    obtain ⟨s, hs, hv⟩ := hvs v hv
    exact ih s hs hv
  | object members ending ih =>
    obtain ⟨inner, fs, hinner, rfl, hsorted, hfs⟩ := exists_of_toJson_object h
    obtain ⟨n, rfl, rfl⟩ := exists_of_enter hinner
    refine .object hsorted fun f hf => ?_
    obtain ⟨m, hm, hf⟩ := hfs f hf
    exact ih m hm hf
  | broken b => exact nomatch h

end Source

end Json

end Dashboard
