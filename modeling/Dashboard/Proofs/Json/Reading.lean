import Dashboard.Proofs.Json.Spelling
import Dashboard.Proofs.Number.Decimals
/-!
# Written values are read back

The tokens of a written value make up the source of that value. A number is read back if its text is the
text of one number: this holds of every whole number of 64 bits, but not of every floating point number,
since reading rounds twice. Every whole number that was read from a text has at most 64 bits.
-/

namespace Dashboard.Json

open Number
open Number.Binary64 (signChars)

/-! ## Sources of written values -/

/-- No token of a closing bracket starts a value. -/
theorem exists_tokensOf_cons (v : Json) :
    ∃ t ts, tokensOf v = t :: ts ∧ t ≠ .closeList ∧ t ≠ .closeObject := by
  rcases v with _ | b | n | s | (_ | ⟨v, vs⟩) | (_ | ⟨f, fs⟩)
  all_goals exact ⟨_, _, rfl, nofun, nofun⟩

namespace Source

variable {s : Source} {v : Json} {n : Nat} {ts rest : List Token} {t : Token}

theorem itemsFrom_comma (h : value n ts = (s, .comma :: t :: rest)) (ht : t ≠ .closeList) :
    itemsFrom (n + 1) ts = addItem s (itemsFrom n (t :: rest)) := by
  rw [itemsFrom, h]
  cases t with
  | closeList => exact absurd rfl ht
  | _ => rfl

theorem membersFrom_comma {key : Except Fault String}
    (h : value n ts = (s, .comma :: t :: rest)) (ht : t ≠ .closeObject) :
    membersFrom (n + 1) (.text key :: .colon :: ts) = addMember key s (membersFrom n (t :: rest)) := by
  rw [membersFrom, h]
  cases t with
  | closeObject => exact absurd rfl ht
  | _ => rfl

theorem value_openList (ht : t ≠ .closeList) :
    value (n + 1) (.openList :: t :: ts) =
      (.list (itemsFrom n (t :: ts)).1 (itemsFrom n (t :: ts)).2.1, (itemsFrom n (t :: ts)).2.2) := by
  cases t with
  | closeList => exact absurd rfl ht
  | _ => rfl

theorem value_openObject (ht : t ≠ .closeObject) :
    value (n + 1) (.openObject :: t :: ts) =
      (.object (membersFrom n (t :: ts)).1 (membersFrom n (t :: ts)).2.1, (membersFrom n (t :: ts)).2.2) := by
  cases t with
  | closeObject => exact absurd rfl ht
  | _ => rfl

/-- With enough steps the tokens of a value are read as that value. -/
def Reads (v : Json) : Prop :=
  ∀ n rest, (tokensOf v).length ≤ n → value n (tokensOf v ++ rest) = (ofJson v, rest)

theorem itemsFrom_tokens {vs : List Json} (hv : Reads v) (hvs : ∀ w ∈ vs, Reads w)
    (h : (tokensOf v ++ itemTokens vs).length ≤ n) :
    itemsFrom n (tokensOf v ++ (itemTokens vs ++ rest)) = (ofItems (v :: vs), .closed, rest) := by
  induction vs generalizing v n with
  | nil =>
    simp only [itemTokens, List.length_append, List.length_cons, List.length_nil] at h
    obtain ⟨n, rfl⟩ : ∃ m, n = m + 1 := ⟨n - 1, by omega⟩
    rw [itemsFrom, hv n _ (by omega)]
    rfl
  | cons w vs ih =>
    obtain ⟨hw, hvs⟩ := List.forall_mem_cons.mp hvs
    simp only [itemTokens, List.length_append, List.length_cons] at h
    obtain ⟨n, rfl⟩ : ∃ m, n = m + 1 := ⟨n - 1, by omega⟩
    obtain ⟨t, ts, htokens, ht, -⟩ := exists_tokensOf_cons w
    have hfirst := hv n (itemTokens (w :: vs) ++ rest) (by omega)
    have hrest := ih hw hvs (n := n) (by rw [List.length_append]; omega)
    rw [itemTokens, List.cons_append, List.append_assoc] at hfirst ⊢
    rw [htokens, List.cons_append] at hfirst hrest ⊢
    rw [itemsFrom_comma hfirst ht, hrest]
    rfl

theorem membersFrom_tokens {fs : List (String × Json)} (name : String) (hv : Reads v)
    (hfs : ∀ f ∈ fs, Reads f.2) (h : (tokensOf v ++ fieldTokens fs).length ≤ n) :
    membersFrom (n + 1) (.text (.ok name) :: .colon :: (tokensOf v ++ (fieldTokens fs ++ rest))) =
      (ofFields ((name, v) :: fs), .closed, rest) := by
  induction fs generalizing name v n with
  | nil =>
    simp only [fieldTokens, List.length_append, List.length_cons, List.length_nil] at h
    rw [membersFrom, hv n _ (by omega)]
    rfl
  | cons f fs ih =>
    obtain ⟨hf, hfs⟩ := List.forall_mem_cons.mp hfs
    simp only [fieldTokens, List.length_append, List.length_cons] at h
    obtain ⟨n, rfl⟩ : ∃ m, n = m + 1 := ⟨n - 1, by omega⟩
    have hfirst := hv (n + 1) (fieldTokens (f :: fs) ++ rest) (by omega)
    have hrest := ih f.1 hf hfs (n := n) (by rw [List.length_append]; omega)
    simp only [fieldTokens, List.cons_append, List.append_assoc] at hfirst ⊢
    rw [membersFrom_comma hfirst nofun, hrest]
    rfl

theorem reads (v : Json) : Reads v := by
  induction v using Json.induction with
  | array vs ih =>
    intro n rest h
    cases vs with
    | nil =>
      obtain ⟨n, rfl⟩ : ∃ m, n = m + 1 := ⟨n - 1, by simp [tokensOf] at h; omega⟩
      rfl
    | cons v vs =>
      obtain ⟨hv, hvs⟩ := List.forall_mem_cons.mp ih
      simp only [tokensOf, List.length_cons] at h
      obtain ⟨n, rfl⟩ : ∃ m, n = m + 1 := ⟨n - 1, by omega⟩
      obtain ⟨t, ts, htokens, ht, -⟩ := exists_tokensOf_cons v
      have hitems : itemsFrom n (tokensOf v ++ (itemTokens vs ++ rest)) = _ :=
        itemsFrom_tokens hv hvs (by omega)
      rw [tokensOf, List.cons_append, List.append_assoc]
      rw [htokens, List.cons_append] at hitems ⊢
      rw [value_openList ht, hitems]
      rfl
  | object fs ih =>
    intro n rest h
    cases fs with
    | nil =>
      obtain ⟨n, rfl⟩ : ∃ m, n = m + 1 := ⟨n - 1, by simp [tokensOf] at h; omega⟩
      rfl
    | cons f fs =>
      obtain ⟨hf, hfs⟩ := List.forall_mem_cons.mp ih
      simp only [tokensOf, List.length_cons] at h
      obtain ⟨n, rfl⟩ : ∃ m, n = m + 2 := ⟨n - 2, by omega⟩
      have hmembers : membersFrom (n + 1)
          (.text (.ok f.1) :: .colon :: (tokensOf f.2 ++ (fieldTokens fs ++ rest))) = _ :=
        membersFrom_tokens f.1 hf hfs (by omega)
      rw [tokensOf, List.cons_append, List.cons_append, List.cons_append, List.append_assoc]
      have hname : Token.text (.ok f.1) ≠ .closeObject := nofun
      rw [value_openObject hname, hmembers]
      rfl
  | _ =>
    intro n rest h
    obtain ⟨n, rfl⟩ : ∃ m, n = m + 1 := ⟨n - 1, by simp [tokensOf] at h; omega⟩
    rfl

/-- A written value whose numbers are read back is read back. -/
theorem ofText_spread {v : Json} (h : v.AllNumbers IsSpelled) : ofText v.spread = (ofJson v, false) := by
  obtain ⟨m, -, htokens⟩ := spells_spreadChars h 0 _ [] ends_nil (Nat.lt_succ_self _)
  have hnil : tokensWithin m [] = [] := by cases m <;> rfl
  rw [List.append_nil, hnil, List.append_nil] at htokens
  have hvalue := reads v (2 * (tokensOf v).length + 2) [] (by omega)
  rw [List.append_nil] at hvalue
  simp only [ofText, spread, String.toList_ofList, tokens, htokens, hvalue]
  rfl

end Source

/-! ## Numbers of texts -/

/-- A whole number of at most 64 bits, or a floating point number. -/
structure InRange (n : Numeral) : Prop where
  low : ∀ i, n = .whole i → lowestOf 64 ≤ i
  high : ∀ i, n = .whole i → i ≤ (largestWhole : Int)

theorem inRange_value {p : NumberParts} {n : Numeral} (h : p.value = .ok n) : InRange n := by
  suffices ∀ i, n = .whole i → lowestOf 64 ≤ i ∧ i ≤ (largestWhole : Int) from
    ⟨fun i hi => (this i hi).1, fun i hi => (this i hi).2⟩
  rintro i rfl
  have hlowest : lowestOf 64 = -(twoTo 63 : Nat) := rfl
  unfold NumberParts.value at h
  simp only [Bool.and_eq_true, decide_eq_true_eq, Bool.or_eq_true] at h
  split at h
  · split at h
    · cases h
      omega
    · split at h
      · cases h
      · cases h
        omega
  · unfold NumberParts.real at h
    obtain ⟨x, -, hx⟩ := exists_of_map h
    cases hx

namespace Token

def IsInRange : Token → Prop
  | .number (.ok n) => InRange n
  | _ => True

theorem isInRange_number {v : Except Fault Numeral} :
    (number v).IsInRange ↔ ∀ n, v = .ok n → InRange n := by
  cases v with
  | error f => exact ⟨fun _ _ h => (nomatch h), fun _ => trivial⟩
  | ok n => exact ⟨fun h _ he => Except.ok.inj he ▸ h, fun h => h n rfl⟩

end Token

theorem isInRange_tokensWithin (n : Nat) (cs : List Char) : ∀ t ∈ tokensWithin n cs, t.IsInRange := by
  induction n generalizing cs with
  | zero => exact fun _ ht => absurd ht List.not_mem_nil
  | succ n ih =>
    cases cs with
    | nil => exact fun _ ht => absurd ht List.not_mem_nil
    | cons c cs =>
      have hcons : ∀ {t : Token}, t.IsInRange → ∀ cs, ∀ u ∈ t :: tokensWithin n cs, u.IsInRange :=
        fun ht cs => List.forall_mem_cons.mpr ⟨ht, ih cs⟩
      have hword : ∀ {t : Token}, t.IsInRange → ∀ r, ∀ u ∈ wordToken t (tokensWithin n) r, u.IsInRange := by
        rintro t ht (b | cs)
        · exact List.forall_mem_singleton.mpr trivial
        · exact hcons ht cs
      have hnumber : ∀ r, ∀ u ∈ numberToken (tokensWithin n) r, u.IsInRange := by
        rintro (b | ⟨p, cs⟩)
        · exact List.forall_mem_singleton.mpr trivial
        · exact hcons (Token.isInRange_number.mpr fun _ hn => inRange_value hn) cs
      have hite : ∀ (p : Prop) [Decidable p] {ts us : List Token}, (∀ t ∈ ts, t.IsInRange) →
          (∀ t ∈ us, t.IsInRange) → ∀ t ∈ if p then ts else us, t.IsInRange := by
        intro p _ ts us hts hus
        split
        · exact hts
        · exact hus
      rw [tokensWithin]
      -- One step for each kind of character, in the order in which they are tried.
      refine hite _ (ih cs) ?_
      refine hite _ (hcons (by trivial) cs) ?_
      refine hite _ (hcons (by trivial) cs) ?_
      refine hite _ (hcons (by trivial) cs) ?_
      refine hite _ (hcons (by trivial) cs) ?_
      refine hite _ (hcons (by trivial) cs) ?_
      refine hite _ (hcons (by trivial) cs) ?_
      refine hite _ (hword (by trivial) _) ?_
      refine hite _ (hword (by trivial) _) ?_
      refine hite _ (hword (by trivial) _) ?_
      refine hite _ (hnumber _) (hite _ (hnumber _) (hite _ ?_ ?_))
      · split
        · exact hcons (by trivial) _
        · exact List.forall_mem_singleton.mpr trivial
      · exact List.forall_mem_singleton.mpr trivial

namespace Source

/-- What so many steps read from tokens with numbers of at most 64 bits has only such numbers, and so do
the tokens that they leave. -/
structure KeepsRange (n : Nat) : Prop where
  value : ∀ ts : List Token, (∀ t ∈ ts, t.IsInRange) →
    (value n ts).1.AllNumbers InRange ∧ ∀ t ∈ (value n ts).2, t.IsInRange
  items : ∀ ts : List Token, (∀ t ∈ ts, t.IsInRange) →
    (∀ s ∈ (itemsFrom n ts).1, s.AllNumbers InRange) ∧ ∀ t ∈ (itemsFrom n ts).2.2, t.IsInRange
  members : ∀ ts : List Token, (∀ t ∈ ts, t.IsInRange) →
    (∀ m ∈ (membersFrom n ts).1, m.2.AllNumbers InRange) ∧ ∀ t ∈ (membersFrom n ts).2.2, t.IsInRange

theorem keepsRange_value {n : Nat} (h : KeepsRange n) {t : Token} {ts : List Token}
    (ht : t.IsInRange) (hts : ∀ t ∈ ts, t.IsInRange) :
    (Source.value (n + 1) (t :: ts)).1.AllNumbers InRange ∧
      ∀ u ∈ (Source.value (n + 1) (t :: ts)).2, u.IsInRange := by
  have hnone : ∀ {α : Type} {P : α → Prop}, ∀ a ∈ ([] : List α), P a := fun _ h => absurd h List.not_mem_nil
  cases t with
  | null => exact ⟨.null, hts⟩
  | bool b => exact ⟨.bool b, hts⟩
  | number v => exact ⟨.number (Token.isInRange_number.mp ht), hts⟩
  | text v => exact ⟨.text v, hts⟩
  | broken b inText => exact ⟨.broken b, hnone⟩
  | openList =>
    cases ts with
    | nil => exact ⟨.list hnone _, hnone⟩
    | cons u us =>
      cases u with
      | closeList => exact ⟨.list hnone _, fun v hv => hts v (List.mem_cons_of_mem _ hv)⟩
      | _ => exact ⟨.list (h.items _ hts).1 _, (h.items _ hts).2⟩
  | openObject =>
    cases ts with
    | nil => exact ⟨.object hnone _, hnone⟩
    | cons u us =>
      cases u with
      | closeObject => exact ⟨.object hnone _, fun v hv => hts v (List.mem_cons_of_mem _ hv)⟩
      | _ => exact ⟨.object (h.members _ hts).1 _, (h.members _ hts).2⟩
  | _ => exact ⟨.broken _, hnone⟩

theorem keepsRange_items {n : Nat} (h : KeepsRange n) {ts : List Token} (hts : ∀ t ∈ ts, t.IsInRange) :
    (∀ s ∈ (itemsFrom (n + 1) ts).1, s.AllNumbers InRange) ∧
      ∀ t ∈ (itemsFrom (n + 1) ts).2.2, t.IsInRange := by
  obtain ⟨hvalue, hrest⟩ := h.value ts hts
  have hone : ∀ s ∈ [(Source.value n ts).1], s.AllNumbers InRange := List.forall_mem_singleton.mpr hvalue
  rw [itemsFrom]
  generalize Source.value n ts = r at hvalue hrest hone ⊢
  obtain ⟨s, rest⟩ := r
  simp only
  split
  · exact ⟨hone, fun _ ht => absurd ht List.not_mem_nil⟩
  · obtain ⟨hitems, hafter⟩ := h.items _ fun t ht => hrest t (List.mem_cons_of_mem _ ht)
    exact ⟨List.forall_mem_cons.mpr ⟨hvalue, hitems⟩, hafter⟩
  · exact ⟨hone, fun t ht => hrest t (List.mem_cons_of_mem _ ht)⟩
  · exact ⟨hone, fun _ ht => absurd ht List.not_mem_nil⟩
  · exact ⟨hone, fun _ ht => absurd ht List.not_mem_nil⟩

theorem keepsRange_members {n : Nat} (h : KeepsRange n) {ts : List Token} (hts : ∀ t ∈ ts, t.IsInRange) :
    (∀ m ∈ (membersFrom (n + 1) ts).1, m.2.AllNumbers InRange) ∧
      ∀ t ∈ (membersFrom (n + 1) ts).2.2, t.IsInRange := by
  have hnone : ∀ {α : Type} {P : α → Prop}, ∀ a ∈ ([] : List α), P a := fun _ h => absurd h List.not_mem_nil
  cases ts with
  | nil => exact ⟨hnone, hnone⟩
  | cons t ts =>
    cases t with
    | text key =>
      cases ts with
      | nil => exact ⟨List.forall_mem_singleton.mpr (.broken _), hnone⟩
      | cons u us =>
        cases u with
        | colon =>
          have hus : ∀ t ∈ us, t.IsInRange := fun t ht =>
            hts t (List.mem_cons_of_mem _ (List.mem_cons_of_mem _ ht))
          obtain ⟨hvalue, hrest⟩ := h.value us hus
          have hone : ∀ m ∈ [(key, (Source.value n us).1)], m.2.AllNumbers InRange :=
            List.forall_mem_singleton.mpr hvalue
          simp only [membersFrom]
          generalize Source.value n us = r at hvalue hrest hone ⊢
          obtain ⟨s, rest⟩ := r
          simp only at hvalue hrest hone ⊢
          split
          · exact ⟨hone, hnone⟩
          · obtain ⟨hmembers, hafter⟩ := h.members _ fun t ht => hrest t (List.mem_cons_of_mem _ ht)
            exact ⟨List.forall_mem_cons.mpr ⟨hvalue, hmembers⟩, hafter⟩
          · exact ⟨hone, fun t ht => hrest t (List.mem_cons_of_mem _ ht)⟩
          · exact ⟨hone, hnone⟩
          · exact ⟨hone, hnone⟩
        | _ => exact ⟨List.forall_mem_singleton.mpr (.broken _), hnone⟩
    | broken b inText => cases inText <;> exact ⟨hnone, hnone⟩
    | _ => exact ⟨hnone, hnone⟩

theorem keepsRange (n : Nat) : KeepsRange n := by
  have hnone : ∀ {α : Type} {P : α → Prop}, ∀ a ∈ ([] : List α), P a := fun _ h => absurd h List.not_mem_nil
  induction n with
  | zero => exact ⟨fun ts hts => ⟨.broken _, hts⟩, fun ts hts => ⟨hnone, hts⟩, fun ts hts => ⟨hnone, hts⟩⟩
  | succ n ih =>
    refine ⟨fun ts hts => ?_, fun ts hts => keepsRange_items ih hts, fun ts hts => keepsRange_members ih hts⟩
    cases ts with
    | nil => exact ⟨.broken _, hnone⟩
    | cons t ts =>
      obtain ⟨ht, hts⟩ := List.forall_mem_cons.mp hts
      exact keepsRange_value ih ht hts

/-- The numbers of a text have at most 64 bits. -/
theorem allNumbers_ofText (s : String) : (ofText s).1.AllNumbers InRange :=
  ((keepsRange (2 * (tokens s.toList).length + 2)).value _ (isInRange_tokensWithin _ _)).1

end Source

/-! ## Floating point numbers -/

theorem scanExponent_suffix {p q : NumberParts} {cs rest : List Char} (h : scanExponent p cs = .ok (q, rest)) :
    rest <:+ cs := by
  cases cs with
  | nil =>
    cases h
    exact List.suffix_refl _
  | cons c cs =>
    simp only [scanExponent] at h
    split at h
    · split at h
      · cases h
      · split at h
        · cases h
          refine (List.dropWhile_suffix _).trans ?_
          split
          · exact (List.suffix_cons _ _).trans (List.suffix_cons _ _)
          · exact (List.suffix_cons _ _).trans (List.suffix_cons _ _)
          · exact List.suffix_cons _ _
        · cases h
    · cases h
      exact List.suffix_refl _

theorem scanFraction_suffix {p q : NumberParts} {cs rest : List Char} (h : scanFraction p cs = .ok (q, rest)) :
    rest <:+ cs := by
  unfold scanFraction at h
  split at h
  · cases h
  · split at h
    · exact ((scanExponent_suffix h).trans (List.dropWhile_suffix _)).trans (List.suffix_cons _ _)
    · cases h
  · exact scanExponent_suffix h

theorem scanNumber_suffix {negative : Bool} {q : NumberParts} {cs rest : List Char}
    (h : scanNumber negative cs = .ok (q, rest)) : rest <:+ cs := by
  unfold scanNumber at h
  simp only at h
  split at h
  · cases h
  · cases h
  · cases h
  · exact (scanFraction_suffix h).trans (List.dropWhile_suffix _)

/-- A number whose numeral is read as the number. -/
def IsReadBack (x : Binary64) : Prop :=
  ofText Decoder.json x.documentText = .ok (.number (.real x))

theorem eq_of_value {n : Nat} {ts : List Token} {v : Except Fault Numeral}
    (h : Source.value (n + 1) ts = (.number v, [])) : ts = [.number v] := by
  rcases ts with _ | ⟨t, ts⟩
  · cases h
  · cases t with
    | number w =>
      cases h
      rfl
    | openList =>
      rcases ts with _ | ⟨u, us⟩
      · cases h
      · cases u <;> cases h
    | openObject =>
      rcases ts with _ | ⟨u, us⟩
      · cases h
      · cases u <;> cases h
    | _ => cases h

theorem ofText_eq_ok {α : Type} {d : Decoder α} {s : String} {a : α} :
    ofText d s = .ok a ↔ d .ofText (Source.ofText s).1 = .ok a ∧ (Source.ofText s).2 = false := by
  unfold ofText
  generalize Source.ofText s = r
  obtain ⟨source, more⟩ := r
  cases hd : d .ofText source with
  | error e =>
    simp only [hd, bind, Except.bind]
    exact ⟨fun h => (nomatch h), fun h => nomatch h.1⟩
  | ok b =>
    simp only [hd, bind, Except.bind]
    cases more with
    | true => exact ⟨fun h => (nomatch h), fun h => nomatch h.2⟩
    | false => exact ⟨fun h => ⟨h, rfl⟩, fun h => h.1⟩

theorem eq_number_of_toJson {source : Source} {o : Origin} {n : Numeral}
    (h : source.toJson o = .ok (.number n)) : source = .number (.ok n) := by
  cases source with
  | number m =>
    obtain ⟨k, hk, he⟩ := exists_of_map h
    cases he
    cases m with
    | error f => cases hk
    | ok m =>
      cases hk
      rfl
  | text t =>
    obtain ⟨k, -, he⟩ := exists_of_map h
    cases he
  | list items ending =>
    obtain ⟨_, -, h⟩ := exists_of_bind h
    obtain ⟨_, -, h⟩ := exists_of_bind h
    obtain ⟨_, -, h⟩ := exists_of_bind h
    cases h
  | object members ending =>
    obtain ⟨_, -, h⟩ := exists_of_bind h
    obtain ⟨_, -, h⟩ := exists_of_bind h
    obtain ⟨_, -, h⟩ := exists_of_bind h
    cases h
  | null => cases h
  | bool b => cases h
  | broken b => cases h

theorem tokens_of_ofText {s : String} {n : Numeral} (h : ofText Decoder.json s = .ok (.number n)) :
    tokens s.toList = [.number (.ok n)] := by
  obtain ⟨hsource, hend⟩ := ofText_eq_ok.mp h
  refine eq_of_value (n := 2 * (tokens s.toList).length + 1) (Prod.ext (eq_number_of_toJson hsource) ?_)
  simpa [Source.ofText] using hend

theorem exists_documentText_cons {x : Binary64} (hx : x.isFinite = true) :
    ∃ c cs, x.documentText.toList = c :: cs ∧ (c = '-' ∨ c.isDigit = true) := by
  cases x with
  | infinite s => exact absurd hx Bool.false_ne_true
  | nan => exact absurd hx Bool.false_ne_true
  | finite s m e h =>
    have hsigned : ∀ {c cs}, c.isDigit = true → ∃ d ds, signChars s ++ c :: cs = d :: ds ∧
        (d = '-' ∨ d.isDigit = true) := by
      intro c cs hc
      cases s with
      | true => exact ⟨_, _, rfl, .inl rfl⟩
      | false => exact ⟨_, _, rfl, .inr hc⟩
    unfold Binary64.documentText
    simp only
    split
    · rw [String.toList_ofList]
      exact hsigned (by decide)
    · obtain ⟨c, cs, hcs, hc⟩ := Binary64.exists_documentChars_cons (Binary64.shortest (.finite s m e h) m e)
      rw [String.toList_ofList, hcs]
      exact hsigned hc

theorem numberToken_ne_nil {next : List Char → List Token} {r : Except Broken (NumberParts × List Char)} :
    numberToken next r ≠ [] := by
  rcases r with b | ⟨p, cs⟩
  · exact List.cons_ne_nil _ _
  · exact List.cons_ne_nil _ _

/-- A text of numeral characters that has no token is empty. -/
theorem eq_nil_of_tokensWithin {n : Nat} {cs : List Char} (h : tokensWithin n cs = [])
    (hcs : ∀ c ∈ cs, IsNumeralChar c) (hn : cs.length ≤ n) : cs = [] := by
  cases cs with
  | nil => rfl
  | cons c cs =>
    obtain ⟨n, rfl⟩ : ∃ m, n = m + 1 := ⟨n - 1, by simp at hn; omega⟩
    rcases hcs c List.mem_cons_self with hdigit | hsign
    · rw [tokensWithin_digit hdigit] at h
      exact absurd h numberToken_ne_nil
    · simp only [List.mem_cons, List.not_mem_nil, or_false] at hsign
      rcases hsign with rfl | rfl | rfl | rfl
      · exact absurd (h : numberToken _ (scanNumber true cs) = []) numberToken_ne_nil
      · exact nomatch (h : [Token.stray] = [])
      · exact nomatch (h : [Token.stray] = [])
      · exact nomatch (h : [Token.stray] = [])

theorem exists_of_numberToken {n : Nat} {v : Except Fault Numeral} (cs : List Char)
    {r : Except Broken (NumberParts × List Char)}
    (h : numberToken (tokensWithin n) r = [.number v])
    (hcs : ∀ p rest, r = .ok (p, rest) → rest <:+ cs) (hnumeral : ∀ c ∈ cs, IsNumeralChar c)
    (hn : cs.length ≤ n) : ∃ p, r = .ok (p, []) ∧ p.value = v := by
  rcases r with b | ⟨p, rest⟩
  · cases h
  · obtain ⟨hvalue, hrest⟩ := List.cons.inj h
    have hsuffix := hcs p rest rfl
    obtain rfl : rest = [] := eq_nil_of_tokensWithin hrest (fun c hc => hnumeral c (hsuffix.subset hc))
      (Nat.le_trans hsuffix.length_le hn)
    exact ⟨p, rfl, Token.number.inj hvalue⟩

theorem IsReadBack.isFinite {x : Binary64} (h : IsReadBack x) : x.isFinite = true := by
  have hnull : ofText Decoder.json "null" = .ok .null := rfl
  cases x with
  | finite s m e h => rfl
  | infinite s => exact nomatch Except.ok.inj (hnull.symm.trans h)
  | nan => exact nomatch Except.ok.inj (hnull.symm.trans h)

theorem isSpelled_real {x : Binary64} (h : IsReadBack x) : IsSpelled (.real x) := by
  have hfinite := h.isFinite
  have htokens := tokens_of_ofText h
  have hnumeral : ∀ c ∈ x.documentText.toList, IsNumeralChar c := fun _ hc =>
    Binary64.isNumeralChar_documentText hfinite hc
  obtain ⟨c, cs, hcs, hc⟩ := exists_documentText_cons hfinite
  rw [hcs] at htokens hnumeral
  rcases hc with rfl | hdigit
  · obtain ⟨p, hscan, hvalue⟩ := exists_of_numberToken cs htokens
      (fun _ _ hr => scanNumber_suffix hr) (fun c hc => hnumeral c (List.mem_cons_of_mem _ hc)) (Nat.le_succ _)
    exact ⟨p, '-', cs, hcs, hvalue, .inl ⟨rfl, hscan⟩⟩
  · rw [tokens, tokensWithin_digit hdigit] at htokens
    obtain ⟨p, hscan, hvalue⟩ := exists_of_numberToken _ htokens (fun _ _ hr => scanNumber_suffix hr) hnumeral
      (Nat.le_refl _)
    exact ⟨p, c, cs, hcs, hvalue, .inr ⟨hdigit, hscan⟩⟩

theorem ofReal_eq {x : Binary64} (h : IsReadBack x) : Json.ofReal x = .number (.real x) := by
  rw [Json.ofReal, if_pos h.isFinite]

/-- A number that a text can hold: a whole number of 64 bits, or a floating point number that is read back. -/
theorem isSpelled_of_inRange {n : Numeral} (h : InRange n) (hreal : ∀ x, n = .real x → IsReadBack x) :
    IsSpelled n := by
  cases n with
  | whole i => exact isSpelled_whole (h.low i rfl) (h.high i rfl)
  | real x => exact isSpelled_real (hreal x rfl)

end Dashboard.Json
