import Dashboard.Kind.Shape
import Dashboard.Proofs.Document.Guards
import Dashboard.Proofs.Document.References
import Dashboard.Proofs.Marker.Entries
/-!
# What blocks of drawing code refer to

A drawing call refers to what its arguments refer to, and a guard to the component whose state it tests.
Markers, loops and braces refer to nothing. So what a block refers to follows from its guard and its calls.
-/

namespace Dashboard

open Text Number

namespace Statement

variable {refOf : String → Reference} {a b cs : List Char} {rs qs : List Reference}
  {P : Reference → Prop}

/-! ## Texts between other tokens -/

/-- A token that is neither the start of a component nor a color. -/
def Token.IsQuiet : Token → Prop
  | .name cs => cs ≠ ['i', 'd'] ∧ "color_".toList.isPrefixOf cs = false
  | .symbol _ => True

instance : DecidablePred Token.IsQuiet
  | .name _ => inferInstanceAs (Decidable (_ ∧ _))
  | .symbol _ => inferInstanceAs (Decidable True)

theorem refer_quiet {ts : List Token} (h : ∀ t ∈ ts, t.IsQuiet) (rest : List Token) :
    refer refOf .outside (ts ++ rest) = refer refOf .outside rest := by
  induction ts with
  | nil => rfl
  | cons t ts ih =>
    have hbegin : step refOf .outside t = (.outside, []) := by
      cases t with
      | symbol c => rfl
      | name cs =>
        obtain ⟨hid, hcolor⟩ : cs ≠ ['i', 'd'] ∧ "color_".toList.isPrefixOf cs = false :=
          h _ List.mem_cons_self
        simp only [step, begin, if_neg hid, colorOf, hcolor, Bool.false_eq_true, if_false]
    rw [List.cons_append, refer, hbegin, ih fun t' ht' => h t' (List.mem_cons_of_mem t ht')]
    rfl

theorem refer_symbol (c : Char) (ts : List Token) :
    refer refOf .outside (.symbol c :: ts) = refer refOf .outside ts := rfl

/-- A text that adds certain references to those of what follows it, whatever symbol comes first. -/
def Brings (refOf : String → Reference) (cs : List Char) (rs : List Reference) : Prop :=
  ∃ ts, Lexes cs ts ∧ ∀ rest, refer refOf .outside (ts ++ rest) = rs ++ refer refOf .outside rest

namespace Brings

theorem nil : Brings refOf [] [] := ⟨[], .nil, fun _ => rfl⟩

theorem quiet (hquote : '"' ∉ cs) (h : ∀ t ∈ visible (tokens cs), t.IsQuiet) : Brings refOf cs [] :=
  ⟨_, .plain hquote, refer_quiet h⟩

theorem literal (s : String) : Brings refOf (Text.literal s).toList [] :=
  ⟨_, .literal s, fun _ => rfl⟩

theorem blank (ha : Brings refOf a rs) (hb : Brings refOf b qs) :
    Brings refOf (a ++ ' ' :: b) (rs ++ qs) := by
  obtain ⟨us, hus, hrs⟩ := ha
  obtain ⟨vs, hvs, hqs⟩ := hb
  refine ⟨us ++ vs, hus.blank hvs, fun rest => ?_⟩
  rw [List.append_assoc, hrs, hqs, List.append_assoc]

theorem symbol (ha : Brings refOf a rs) {c : Char} (hc : isNameChar c = false) (hquote : c ≠ '"')
    (hblank : c ≠ ' ') (hb : Brings refOf b qs) : Brings refOf (a ++ c :: b) (rs ++ qs) := by
  obtain ⟨us, hus, hrs⟩ := ha
  obtain ⟨vs, hvs, hqs⟩ := hb
  refine ⟨us ++ .symbol c :: vs, hus.symbol hc hquote hblank hvs, fun rest => ?_⟩
  rw [List.append_assoc, hrs, List.cons_append, refer_symbol, hqs, List.append_assoc]

end Brings

/-- A text without the letters `c` and `d` has neither the word `id` nor the name of a color in it. -/
def IsMute (cs : List Char) : Prop := ∀ c ∈ cs, c ≠ '"' ∧ c ≠ 'c' ∧ c ≠ 'd'

instance (cs : List Char) : Decidable (IsMute cs) := List.decidableBAll _ cs

theorem IsMute.append {a b : List Char} (ha : IsMute a) (hb : IsMute b) : IsMute (a ++ b) :=
  List.forall_mem_append.mpr ⟨ha, hb⟩

theorem IsMute.quote_not_mem {cs : List Char} (h : IsMute cs) : '"' ∉ cs := fun hmem =>
  (h '"' hmem).1 rfl

theorem mem_of_mem_tokens {cs name : List Char} (h : .name name ∈ tokens cs) : ∀ c ∈ name, c ∈ cs := by
  induction cs generalizing name with
  | nil => exact absurd h List.not_mem_nil
  | cons d cs ih =>
    have hcons : ∀ {name : List Char}, .name name ∈ tokens cs → ∀ c ∈ name, c ∈ d :: cs :=
      fun h c hc => List.mem_cons_of_mem d (ih h c hc)
    rw [tokens] at h
    split at h
    · rcases hts : tokens cs with _ | ⟨_ | t, ts⟩
      · rw [hts] at h
        cases List.mem_singleton.mp h
        exact fun c hc => List.mem_singleton.mp hc ▸ List.mem_cons_self
      · rw [hts] at h hcons
        rcases List.mem_cons.mp h with he | h
        · cases he
          exact List.forall_mem_cons.mpr ⟨List.mem_cons_self, hcons List.mem_cons_self⟩
        · exact hcons (List.mem_cons_of_mem _ h)
      · rw [hts] at h hcons
        rcases List.mem_cons.mp h with he | h
        · cases he
          exact fun c hc => List.mem_singleton.mp hc ▸ List.mem_cons_self
        · exact hcons h
    · rcases List.mem_cons.mp h with he | h
      · cases he
      · exact hcons h

theorem IsMute.isQuiet {cs : List Char} (h : IsMute cs) : ∀ t ∈ visible (tokens cs), t.IsQuiet := by
  intro t ht
  have htokens : t ∈ tokens cs := (List.mem_filter.mp ht).1
  cases t with
  | symbol c => exact trivial
  | name name =>
    have hmem := mem_of_mem_tokens htokens
    refine ⟨?_, ?_⟩
    · rintro rfl
      exact (h 'd' (hmem 'd' (by decide))).2.2 rfl
    · cases hprefix : "color_".toList.isPrefixOf name with
      | false => rfl
      | true =>
        obtain ⟨rest, hrest⟩ := List.isPrefixOf_iff_prefix.mp hprefix
        have hc : 'c' ∈ name := hrest ▸ List.mem_append_left rest (by decide)
        exact absurd rfl (h 'c' (hmem 'c' hc)).2.1

theorem isMute_of_isNumeralChar (h : ∀ c ∈ cs, IsNumeralChar c) : IsMute cs := by
  intro c hc
  refine ⟨?_, ?_, ?_⟩
  all_goals
    rintro rfl
    exact absurd (h _ hc) (by simp [IsNumeralChar])

theorem isMute_natText (n : Nat) : IsMute (natText n).toList :=
  isMute_of_isNumeralChar fun c hc => by
    rw [natText, String.toList_ofList] at hc
    exact isNumeralChar_of_mem_digitsOf hc

theorem isMute_intText (i : Int) : IsMute (intText i).toList :=
  isMute_of_isNumeralChar fun _ => isNumeralChar_intText

theorem Brings.mute (h : IsMute cs) : Brings refOf cs [] := .quiet h.quote_not_mem h.isQuiet

/-! ## Components and colors -/

/-- A name that code can hold: not empty, of letters, digits and underscores. -/
def IsName (s : String) : Prop := s.toList ≠ [] ∧ IsWord s.toList

theorem IsName.quote_not_mem {s : String} (h : IsName s) : '"' ∉ s.toList := fun hmem =>
  absurd (h.2 '"' hmem) (by decide)

/-- The name of the constant of a color. -/
structure IsColorName (name : String) : Prop where
  isName : IsName name
  isColor : "color_".toList.isPrefixOf name.toList = true

theorem Brings.color {name : String} (h : IsColorName name) :
    Brings refOf name.toList [.color name] := by
  refine ⟨_, .name h.isName.1 h.isName.2, fun rest => ?_⟩
  have hid : name.toList ≠ ['i', 'd'] := by
    intro hid
    exact absurd h.isColor (by rw [hid]; decide)
  have hof : colorOf name.toList = [.color name] := by
    rw [colorOf, if_pos h.isColor, String.ofList_toList]
  have hbegin : step refOf .outside (.name name.toList) = (.outside, [.color name]) := by
    simp only [step, begin, if_neg hid, hof]
  rw [List.singleton_append, refer, hbegin]

theorem lexes_componentRef {id : String} (h : IsName id) :
    Lexes (Kind.componentRef id).toList
      [.name ['i', 'd'], .symbol '(', .name id.toList, .symbol ')'] := by
  have hquote : '"' ∉ (Kind.componentRef id).toList := by
    simp [Kind.componentRef, h.quote_not_mem]
  have hchars : (Kind.componentRef id).toList = ['i', 'd'] ++ '(' :: (id.toList ++ ')' :: []) := by
    simp [Kind.componentRef]
  have hlexes := Lexes.plain hquote
  rw [hchars, tokens_append_symbol (by decide), tokens_append_symbol (by decide),
    tokens_name h.1 h.2] at hlexes
  rwa [hchars]

theorem Brings.state {id : String} (h : IsName id) :
    Brings refOf ((Kind.componentRef id).toList ++ '.' :: "state".toList) [.sensor id] := by
  refine ⟨_, (lexes_componentRef h).symbol (by decide) (by decide) (by decide)
    (.name (by decide) (by decide)), fun rest => ?_⟩
  simp [refer, step, begin]

/-- The state of a component, as a number or as a text. -/
theorem Brings.stateArgument {read : EntityRead} (h : IsName read.id) :
    Brings refOf (Kind.stateArgument read).toList [.sensor read.id] := by
  unfold Kind.stateArgument
  cases read.isText with
  | false =>
    have hchars : (Kind.componentRef read.id ++ ".state").toList =
        (Kind.componentRef read.id).toList ++ '.' :: "state".toList := by
      simp
    rw [if_neg Bool.false_ne_true, hchars]
    exact .state h
  | true =>
    have hchars : (Kind.componentRef read.id ++ ".state.c_str()").toList =
        ((Kind.componentRef read.id).toList ++ '.' :: "state".toList) ++ '.' :: "c_str()".toList := by
      simp
    have hquiet : Brings refOf "c_str()".toList [] := .quiet (by decide) (by decide)
    rw [if_pos rfl, hchars]
    exact (Brings.state h).symbol (by decide) (by decide) (by decide) hquiet

/-! ## Calls -/

/-- A text that adds certain references to those of what follows it in an argument list. -/
def Refers (refOf : String → Reference) (s : String) (rs : List Reference) : Prop :=
  ∀ c rest, c = ',' ∨ c = ')' → refer refOf .outside (lex (s.toList ++ c :: rest)) =
    rs ++ refer refOf .outside (lex rest)

theorem Brings.refers {s : String} (h : Brings refOf s.toList rs) : Refers refOf s rs := by
  obtain ⟨ts, hts, hrs⟩ := h
  intro c rest hc
  rcases hc with rfl | rfl
  · rw [hts _ rest (by decide), lex_symbol (by decide) (by decide) (by decide), hrs, refer_symbol]
  · rw [hts _ rest (by decide), lex_symbol (by decide) (by decide) (by decide), hrs, refer_symbol]

/-- A component is read with what follows it, because a state may. -/
theorem Refers.component {id : String} (h : IsName id) :
    Refers refOf (Kind.componentRef id) [refOf id] := by
  intro c rest hc
  rcases hc with rfl | rfl
  · rw [lexes_componentRef h _ rest (by decide), lex_symbol (by decide) (by decide) (by decide)]
    simp [refer, step, begin]
  · rw [lexes_componentRef h _ rest (by decide), lex_symbol (by decide) (by decide) (by decide)]
    simp [refer, step, begin]

/-- A text that adds references with a property to those of what follows it in an argument list. -/
def IsArgument (refOf : String → Reference) (P : Reference → Prop) (s : String) : Prop :=
  ∃ rs, Refers refOf s rs ∧ ∀ ref ∈ rs, P ref

namespace IsArgument

theorem mute {s : String} (h : IsMute s.toList) : IsArgument refOf P s :=
  ⟨[], (Brings.mute h).refers, fun _ href => absurd href List.not_mem_nil⟩

theorem literal (s : String) : IsArgument refOf P (Text.literal s) :=
  ⟨[], (Brings.literal s).refers, fun _ href => absurd href List.not_mem_nil⟩

theorem component {id : String} (h : IsName id) (hp : P (refOf id)) :
    IsArgument refOf P (Kind.componentRef id) :=
  ⟨_, .component h, List.forall_mem_singleton.mpr hp⟩

theorem color {name : String} (h : IsColorName name) (hp : P (.color name)) : IsArgument refOf P name :=
  ⟨_, (Brings.color h).refers, List.forall_mem_singleton.mpr hp⟩

theorem state {read : EntityRead} (h : IsName read.id) (hp : P (.sensor read.id)) :
    IsArgument refOf P (Kind.stateArgument read) :=
  ⟨_, (Brings.stateArgument h).refers, List.forall_mem_singleton.mpr hp⟩

end IsArgument

theorem refer_arguments {arguments : List String} (h : ∀ a ∈ arguments, IsArgument refOf P a) :
    ∃ rs, (∀ ref ∈ rs, P ref) ∧ ∀ rest,
      refer refOf .outside (lex ((joined ", " arguments).toList ++ ')' :: rest)) =
        rs ++ refer refOf .outside (lex rest) := by
  induction arguments with
  | nil =>
    refine ⟨[], fun _ href => absurd href List.not_mem_nil, fun rest => ?_⟩
    simp [joined, lex_symbol, isNameChar, refer_symbol]
  | cons a arguments ih =>
    obtain ⟨rs, ha, hrs⟩ := h a List.mem_cons_self
    cases arguments with
    | nil =>
      have hone : joined ", " [a] = a := by simp [joined]
      exact ⟨rs, hrs, fun rest => by rw [hone, ha ')' rest (.inr rfl)]⟩
    | cons b arguments =>
      obtain ⟨qs, hqs, hothers⟩ := ih fun b hb => h b (List.mem_cons_of_mem a hb)
      refine ⟨rs ++ qs, List.forall_mem_append.mpr ⟨hrs, hqs⟩, fun rest => ?_⟩
      have hmore : (joined ", " (a :: b :: arguments)).toList ++ ')' :: rest =
          a.toList ++ ',' :: ' ' :: ((joined ", " (b :: arguments)).toList ++ ')' :: rest) := by
        simp [joined, String.intercalate_cons_cons]
      rw [hmore, ha ',' _ (.inl rfl), lex_blank, hothers, List.append_assoc]

theorem references_eq {s : String} (hblank : skipBlank s.toList = s.toList)
    (hapart : isApart s.toList = false) :
    references s = refer (componentOf s.toList) .outside (lex s.toList) := by
  simp [references, hblank, hapart]

/-- The name of a drawing call that is no part of a component or a color. -/
structure IsCallName (name : String) (component : String → Reference) : Prop where
  isName : IsName name
  isQuiet : (Token.name name.toList).IsQuiet
  component : ∀ rest, componentOf ("it.".toList ++ (name.toList ++ '(' :: rest)) = component

theorem references_call {name : String} {component : String → Reference}
    (hname : IsCallName name component) {arguments : List String}
    (h : ∀ a ∈ arguments, IsArgument component P a) :
    ∀ ref ∈ references (Kind.call name arguments), P ref := by
  obtain ⟨rs, hrs, harguments⟩ := refer_arguments h
  have hlexes : Lexes (['i', 't'] ++ '.' :: name.toList)
      ([.name ['i', 't']] ++ .symbol '.' :: [.name name.toList]) :=
    (Lexes.name (by decide) (by decide)).symbol (by decide) (by decide) (by decide)
      (.name hname.isName.1 hname.isName.2)
  have hquiet : ∀ t ∈ [Token.name ['i', 't']] ++ .symbol '.' :: [.name name.toList],
      t.IsQuiet := by
    simp only [List.forall_mem_append, List.forall_mem_cons]
    exact ⟨⟨by decide, by simp⟩, trivial, hname.isQuiet, by simp⟩
  have hchars : (Kind.call name arguments).toList = (['i', 't'] ++ '.' :: name.toList) ++
      '(' :: ((joined ", " arguments).toList ++ ')' :: [';']) := by
    simp [Kind.call]
  have hcomponent : componentOf (Kind.call name arguments).toList = component := by
    rw [hchars]
    exact hname.component _
  have hend : refer component .outside (lex [';']) = [] := by
    simp [isNameChar, lex, codeFrom, tokens, visible, refer, step, begin]
  have hreferences : references (Kind.call name arguments) = rs := by
    rw [references_eq, hcomponent, hchars, hlexes '(' _ (by decide),
      lex_symbol (by decide) (by decide) (by decide), refer_quiet hquiet, refer_symbol, harguments, hend,
      List.append_nil]
    · rw [hchars]
      exact skipBlank_cons (by decide) _
    · rw [hchars]
      rfl
  rw [hreferences]
  exact hrs

/-! ## Lines -/

theorem references_spaces (n : Nat) (s : String) : references (spaces n ++ s) = references s := by
  have hskip : skipBlank (spaces n ++ s).toList = skipBlank s.toList := by
    rw [String.toList_append, spaces, String.toList_ofList, skipBlank_indent]
  simp only [references, hskip]

theorem references_mute {s : String} (h : IsMute s.toList) : references s = [] := by
  have hskip : IsMute (skipBlank s.toList) := fun c hc =>
    h c ((List.dropWhile_sublist _).subset hc)
  have hlex : lex (skipBlank s.toList) = visible (tokens (skipBlank s.toList)) := by
    have hcode := codeFrom_append hskip.quote_not_mem []
    rw [List.append_nil, codeFrom, List.append_nil] at hcode
    rw [lex, hcode]
  have hrefer : refer (componentOf (skipBlank s.toList)) .outside
      (visible (tokens (skipBlank s.toList)) ++ []) = [] := refer_quiet hskip.isQuiet []
  rw [List.append_nil] at hrefer
  simp only [references, hlex, hrefer]
  split <;> rfl

theorem references_comment (s : String) : references ("//" ++ s) = [] := by
  have hskip : skipBlank ("//" ++ s).toList = "//".toList ++ s.toList := by
    rw [String.toList_append]
    exact skipBlank_cons (by decide) _
  simp only [references, hskip]
  rfl

theorem references_now (s : String) : references ("auto now = " ++ s) = [] := by
  have hskip : skipBlank ("auto now = " ++ s).toList = "auto now = ".toList ++ s.toList := by
    rw [String.toList_append]
    exact skipBlank_cons (by decide) _
  simp only [references, hskip]
  rfl

/-- A line that ends with a symbol. -/
theorem references_of_brings {s : String} {d : Char} (hs : s.toList = cs ++ [d])
    (h : Brings (componentOf s.toList) cs rs) (hskip : skipBlank s.toList = s.toList)
    (hapart : isApart s.toList = false) (hd : isNameChar d = false) (hquote : d ≠ '"')
    (hblank : d ≠ ' ') : references s = rs := by
  obtain ⟨ts, hts, hrs⟩ := h
  have hlex : lex s.toList = ts ++ .symbol d :: [] := by
    rw [hs, hts d [] hd, lex_symbol hd hquote hblank]
    rfl
  rw [references_eq hskip hapart, hlex, hrs, refer_symbol]
  exact List.append_nil rs

end Statement

/-! ## Guards -/

theorem Entity.ne_empty_of_normalize? {raw entity : String} (h : Entity.normalize? raw = some entity) :
    entity ≠ "" := by
  obtain ⟨t, ht, rfl⟩ := Option.map_eq_some_iff.mp h
  split
  · exact (nonBlank?_eq_some ht).2
  · intro hempty
    exact absurd (congrArg String.toList hempty) (by simp)

theorem Statement.isName_componentId {entity : String} (h : entity ≠ "") :
    IsName (Entity.componentId entity) := by
  refine ⟨fun hnil => h ?_, fun c hc => ?_⟩
  · rw [Entity.componentId, String.toList_ofList] at hnil
    exact String.toList_inj.mp (List.map_eq_nil_iff.mp hnil)
  · simpa [isNameChar] using Entity.mem_componentId hc

namespace Condition

open Statement

variable {entity g : String}

/-- A guard that reads the state of one entity, perhaps several times. -/
def Tests (entity g : String) : Prop :=
  ∃ rs, Brings .font g.toList rs ∧ ∀ ref ∈ rs, ref = .sensor (Entity.componentId entity)

theorem brings_stateOf (h : entity ≠ "") :
    Brings .font (stateOf entity).toList [.sensor (Entity.componentId entity)] := by
  have hchars : (stateOf entity).toList =
      (Kind.componentRef (Entity.componentId entity)).toList ++ '.' :: "state".toList := by
    simp [stateOf, Kind.componentRef]
  rw [hchars]
  exact .state (isName_componentId h)

theorem isMute_plainText (x : Binary64) : IsMute x.plainText.toList := by
  have hnot : ∀ c ∈ ['"', 'c', 'd'], c ∉ x.plainText.toList := by
    intro c hc
    simp only [List.mem_cons, List.not_mem_nil, or_false] at hc
    rcases hc with rfl | rfl | rfl
    all_goals exact Binary64.not_mem_plainText (by simp [IsNumeralChar]) (by decide) x
  intro c hc
  refine ⟨?_, ?_, ?_⟩
  all_goals
    rintro rfl
    exact hnot _ (by decide) hc

theorem brings_bounded (h : entity ≠ "") {comparison : String} (hc : IsMute comparison.toList)
    (x : Binary64) : Brings .font (bounded (stateOf entity) comparison x).toList
      [.sensor (Entity.componentId entity)] := by
  have hchars : (bounded (stateOf entity) comparison x).toList =
      (stateOf entity).toList ++ ' ' :: (comparison.toList ++ ' ' :: x.plainText.toList) := by
    simp [bounded]
  rw [hchars]
  exact (brings_stateOf h).blank (.blank (.mute hc) (.mute (isMute_plainText x)))

theorem tests_bounded (h : entity ≠ "") {comparison : String} (hc : IsMute comparison.toList)
    (x : Binary64) : Tests entity (bounded (stateOf entity) comparison x) :=
  ⟨_, brings_bounded h hc x, by simp⟩

theorem tests_rangeGuard (h : entity ≠ "") {c : Condition}
    (hg : c.rangeGuard? (stateOf entity) = some g) : Tests entity g := by
  unfold rangeGuard? at hg
  split at hg
  · rename_i l u _ _
    have hchars : g.toList = (bounded (stateOf entity) ">=" l).toList ++
        ' ' :: ("&&".toList ++ ' ' :: (bounded (stateOf entity) "<=" u).toList) := by
      rw [← Option.some.inj hg]
      simp
    have hlower : IsMute ">=".toList := by decide
    have hand : Brings .font "&&".toList [] := .mute (by decide)
    have hupper : IsMute "<=".toList := by decide
    have hbrings := (brings_bounded h hlower l).blank (hand.blank (brings_bounded h hupper u))
    rw [← hchars] at hbrings
    exact ⟨_, hbrings, by simp⟩
  · exact Option.some.inj hg ▸ tests_bounded h (by decide) _
  · exact Option.some.inj hg ▸ tests_bounded h (by decide) _
  · exact nomatch hg

theorem tests_binaryGuard (h : entity ≠ "") {op : String} {expected : Option String}
    (hg : binaryGuard? (stateOf entity) op expected = some g) : Tests entity g := by
  unfold binaryGuard? at hg
  split at hg
  · exact nomatch hg
  · obtain ⟨on, -, rfl⟩ := Option.map_eq_some_iff.mp hg
    split
    · exact ⟨_, brings_stateOf h, by simp⟩
    · have hchars : ("!" ++ stateOf entity).toList = [] ++ '!' :: (stateOf entity).toList := by simp
      have hbrings := Brings.nil.symbol (c := '!') (by decide) (by decide) (by decide) (brings_stateOf h)
      rw [← hchars] at hbrings
      exact ⟨_, hbrings, by simp⟩

theorem isMute_of_isComparison {op : String} (h : isComparison op = true) : IsMute op.toList := by
  simp only [isComparison, isEquality, Bool.or_eq_true, beq_iff_eq] at h
  rcases h with ((((rfl | rfl) | rfl) | rfl) | rfl) | rfl
  all_goals decide

theorem tests_textGuard (h : entity ≠ "") {op : String} (hop : isComparison op = true)
    {expected : Option String} (hg : textGuard? (stateOf entity) op expected = some g) :
    Tests entity g := by
  unfold textGuard? at hg
  split at hg
  · exact nomatch hg
  · have hchars : g.toList = (stateOf entity).toList ++
        ' ' :: (op.toList ++ ' ' :: (literal (expected.getD "")).toList) := by
      rw [← Option.some.inj hg]
      simp
    have hbrings := (brings_stateOf h).blank
      ((Brings.mute (isMute_of_isComparison hop)).blank (.literal (expected.getD "")))
    rw [← hchars] at hbrings
    exact ⟨_, hbrings, by simp⟩

theorem tests_guardFor (h : entity ≠ "") {c : Condition} (hg : c.guardFor? entity = some g) :
    Tests entity g := by
  unfold guardFor? at hg
  simp only at hg
  split at hg
  · exact tests_rangeGuard h hg
  · split at hg
    · exact nomatch hg
    · rename_i hop
      have hcomparison : isComparison c.operatorOf = true := by simpa using hop
      split at hg
      · exact tests_binaryGuard h hg
      · split at hg
        · exact tests_textGuard h hcomparison hg
        · obtain ⟨x, -, rfl⟩ := Option.map_eq_some_iff.mp hg
          exact tests_bounded h (isMute_of_isComparison hcomparison) x

/-- The entity that a guard reads, if there is one. -/
def guardEntity? (c : Condition) : Option String := c.entity?.bind Entity.normalize?

theorem tests_of_guard? {c : Condition} (hg : c.guard? = some g) :
    ∃ entity, c.guardEntity? = some entity ∧ Tests entity g := by
  obtain ⟨entity, hentity, hg⟩ := Option.bind_eq_some_iff.mp hg
  obtain ⟨raw, -, hraw⟩ := Option.bind_eq_some_iff.mp hentity
  exact ⟨entity, hentity, tests_guardFor (Entity.ne_empty_of_normalize? hraw) hg⟩

end Condition

theorem Statement.references_guard {entity g : String} (h : Condition.Tests entity g) :
    ∀ ref ∈ references ("if (" ++ g ++ ") \x7b"), ref = .sensor (Entity.componentId entity) := by
  obtain ⟨rs, hrs, hsensor⟩ := h
  have hend : Brings .font ([] ++ ' ' :: []) [] := Brings.nil.blank .nil
  have hopen := Brings.nil.symbol (c := '(') (by decide) (by decide) (by decide)
    (hrs.symbol (c := ')') (by decide) (by decide) (by decide) hend)
  have hif : Brings .font ['i', 'f'] [] := .mute (by decide)
  have hbrings := hif.blank hopen
  rw [List.nil_append, List.nil_append, List.append_nil] at hbrings
  have hline : ("if (" ++ g ++ ") \x7b").toList =
      ['i', 'f'] ++ ' ' :: ([] ++ '(' :: (g.toList ++ ')' :: ([] ++ ' ' :: []))) ++ ['\x7b'] := by
    simp
  have hreferences : references ("if (" ++ g ++ ") \x7b") = rs := by
    refine references_of_brings hline ?_ ?_ ?_ (by decide) (by decide) (by decide)
    · rw [hline]
      exact hbrings
    · rw [hline]
      exact skipBlank_cons (by decide) _
    · rw [hline]
      rfl
  rw [hreferences]
  exact hsensor

/-! ## Blocks -/

namespace Block

open Statement

/-- A predicate holds of everything that the lines of a block refer to. -/
def RefersTo (P : Reference → Prop) (b : Block) : Prop := ∀ l ∈ b.lines, ∀ ref ∈ references l, P ref

variable {P : Reference → Prop} {b : Block}

theorem references_encode (w : Widget) (props : Bag) (aliases : Aliases) :
    references (Marker.encode w props aliases) = [] := by
  have hhead : "// widget:" = "//" ++ " widget:" := by decide
  rw [Marker.encode_eq, hhead, String.append_assoc, references_comment]

namespace RefersTo

theorem line (h : b.RefersTo P) {s : String} (hs : ∀ ref ∈ references s, P ref) :
    (b.line s).RefersTo P := by
  intro l hl
  rcases List.mem_append.mp hl with hl | hl
  · exact h l hl
  · rw [List.mem_singleton.mp hl, references_spaces]
    exact hs

theorem plain (h : b.RefersTo P) {s : String} (hs : references s = []) : (b.line s).RefersTo P :=
  h.line fun _ href => absurd href (by simp [hs])

theorem foldl_line {ss : List String} (h : b.RefersTo P) (hs : ∀ s ∈ ss, ∀ ref ∈ references s, P ref) :
    (ss.foldl Block.line b).RefersTo P := by
  induction ss generalizing b with
  | nil => exact h
  | cons s ss ih =>
    exact ih (h.line (hs s List.mem_cons_self)) fun s' hs' => hs s' (List.mem_cons_of_mem s hs')

theorem loop (h : b.RefersTo P) (count : Nat) {s : String} (hs : ∀ ref ∈ references s, P ref) :
    (b.loop count s).RefersTo P := by
  have hfor : references ("for (int i = 0; i < " ++ natText count ++ "; i++) \x7b") = [] := by
    refine references_mute ?_
    rw [String.toList_append, String.toList_append]
    exact ((by decide : IsMute "for (int i = 0; i < ".toList).append (isMute_natText count)).append
      (by decide)
  have hindent : references ("  " ++ s) = references s := references_spaces 2 s
  exact ((h.plain hfor).line (hindent ▸ hs)).plain (references_mute (by decide))

theorem openScope (h : b.RefersTo P) : b.openScope.RefersTo P := h.plain (references_mute (by decide))

theorem closeScope (h : b.RefersTo P) : b.closeScope.RefersTo P := by
  have hinner : ({ b with indent := b.indent - 2 } : Block).RefersTo P := h
  exact hinner.plain (references_mute (by decide))

theorem finish (h : b.RefersTo P) : ∀ l ∈ b.finish, ∀ ref ∈ references l, P ref := by
  unfold Block.finish
  split
  · intro l hl
    rcases List.mem_append.mp hl with hl | hl
    · exact h l hl
    · rw [List.mem_singleton.mp hl, references_spaces, references_mute (by decide)]
      exact fun _ href => absurd href List.not_mem_nil
  · exact h

end RefersTo

theorem refersTo_start {w : Widget} (props : Bag) (aliases : Aliases)
    (h : ∀ entity, w.condition.guardEntity? = some entity → P (.sensor (Entity.componentId entity))) :
    (start w props aliases).RefersTo P := by
  have hmarker : ∀ ref ∈ references (spaces pageColumn ++ Marker.encode w props aliases), P ref := by
    rw [references_spaces, references_encode]
    exact fun _ href => absurd href List.not_mem_nil
  unfold start
  cases hg : w.condition.guard? with
  | none => exact List.forall_mem_singleton.mpr hmarker
  | some g =>
    obtain ⟨entity, hentity, htests⟩ := Condition.tests_of_guard? hg
    refine List.forall_mem_cons.mpr ⟨hmarker, List.forall_mem_singleton.mpr fun ref href => ?_⟩
    rw [String.append_assoc, String.append_assoc, references_spaces, ← String.append_assoc] at href
    exact references_guard htests ref href ▸ h entity hentity

end Block

end Dashboard
