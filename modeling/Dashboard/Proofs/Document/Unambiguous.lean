import Dashboard.Proofs.Json.Reading
import Dashboard.Proofs.Document.Scalars
/-!
# Scalars that are told apart

Two values are written as the same scalar only if they are the same value, lists of lists included. A scalar
without quotes has none of the characters that end an item, a scalar between quotes ends with its quote, and a
list with its bracket; so wherever a scalar ends, what stands before that is one value's.
-/

namespace Dashboard.Yaml

open Text Number

/-- Null, truth values, whole numbers, strings that do not start with the tag of code, and lists of such values. -/
inductive IsUntagged : Json → Prop
  | null : IsUntagged .null
  | bool (b : Bool) : IsUntagged (.bool b)
  | whole (i : Int) : IsUntagged (.number (.whole i))
  | string {s : String} (h : startsWith "!lambda" s = false) : IsUntagged (.string s)
  | array {vs : List Json} (h : ∀ v ∈ vs, IsUntagged v) : IsUntagged (.array vs)

/-! ## Spellings of values that are no strings -/

/-- A text that starts like a number is a plain one only with the mark of a radix or of a percentage. -/
theorem isPlain_eq_false_of_cons {s : String} {c : Char} {cs : List Char} (hs : s.toList = c :: cs)
    (hstart : isWordStart c = false) (hhex : 'x' ∉ cs) (hpercent : '%' ∉ s.toList) : isPlain s = false := by
  have hword : isPlainWord s.toList = false := by
    rw [hs, isPlainWord, hstart]
    rfl
  have hnumber : isHexNumber s.toList = false := by
    refine Bool.eq_false_iff.mpr fun h => ?_
    obtain ⟨ds, hds, -⟩ := exists_of_isHexNumber h
    refine hhex ?_
    rw [(List.cons.inj (hs.symm.trans hds)).2]
    exact List.mem_cons_self
  have hpercentage : isPercentage s.toList = false := by
    refine Bool.eq_false_iff.mpr fun h => ?_
    obtain ⟨d, ds, hds, -⟩ := exists_of_isPercentage h
    exact hpercent (by rw [hds]; simp)
  rw [isPlain, hword, hnumber, hpercentage, Bool.or_false, Bool.or_false, Bool.and_false]

theorem isPlain_eq_false_of_numeral {s : String} {c : Char} {cs : List Char} (hs : s.toList = c :: cs)
    (hc : c = '-' ∨ c.isDigit = true) (hall : ∀ d ∈ s.toList, IsNumeralChar d) : isPlain s = false := by
  have hmem : ∀ d, ¬ IsNumeralChar d → d ∉ s.toList := fun d hd hd' => hd (hall d hd')
  refine isPlain_eq_false_of_cons hs ?_ (fun h => ?_) (hmem '%' (by simp [IsNumeralChar]))
  · refine Bool.eq_false_iff.mpr fun h => ?_
    rcases hc with rfl | hdigit
    · exact absurd h (by decide)
    · have hletter := (toNat_of_isWordStart h).1
      have hhigh : c.toNat ≤ 57 := (Char.isDigit_iff_toNat.mp hdigit).2
      omega
  · exact hmem 'x' (by simp [IsNumeralChar]) (by rw [hs]; exact List.mem_cons_of_mem c h)

theorem exists_intText_cons (i : Int) : ∃ c cs, (intText i).toList = c :: cs ∧ (c = '-' ∨ c.isDigit = true) := by
  unfold intText
  split
  · exact ⟨'-', _, String.toList_ofList, .inl rfl⟩
  · obtain ⟨c, cs, hcs, hc⟩ := exists_digitsOf_cons i.natAbs
    exact ⟨c, cs, by rw [String.toList_ofList, hcs], .inr hc⟩

theorem isPlain_numeral (n : Numeral) : isPlain n.text = false := by
  cases n with
  | whole i =>
    obtain ⟨c, cs, hcs, hc⟩ := exists_intText_cons i
    exact isPlain_eq_false_of_numeral hcs hc fun _ => isNumeralChar_intText
  | real x =>
    cases hx : x.isFinite with
    | true =>
      obtain ⟨c, cs, hcs, hc⟩ := Json.exists_documentText_cons hx
      exact isPlain_eq_false_of_numeral hcs hc fun _ => Binary64.isNumeralChar_documentText hx
    | false =>
      have hnull : x.documentText = "null" := by
        cases x with
        | finite s m e h => exact absurd hx (by simp [Binary64.isFinite])
        | infinite s => rfl
        | nan => rfl
      rw [Numeral.text, hnull]
      decide

theorem toList_scalar_array (vs : List Json) :
    (scalar (.array vs)).toList = '[' :: ((joined ", " (scalars vs)).toList ++ [']']) := by
  simp [scalar]

/-- What a value is written as that is no string is never written for a string. -/
theorem isPlain_scalar {v : Json} (h : v.string? = none) : isPlain (scalar v) = false := by
  cases v with
  | null => decide
  | bool b => cases b <;> decide
  | number n => exact isPlain_numeral n
  | string s => exact nomatch h
  | array vs =>
    -- a bracket starts neither a word nor a number
    have hnone : ∀ cs : List Char, (!isReserved (scalar (.array vs)) &&
        (isHexNumber ('[' :: cs) || isPercentage ('[' :: cs) || isPlainWord ('[' :: cs))) = false := by
      intro cs
      have hpercentage : isPercentage ('[' :: cs) = false := by
        refine Bool.eq_false_iff.mpr fun h => ?_
        obtain ⟨d, ds, hds, hdigits⟩ := exists_of_isPercentage h
        exact absurd (hdigits d List.mem_cons_self) (by rw [← (List.cons.inj hds).1]; decide)
      rw [hpercentage]
      simp [isHexNumber, isPlainWord, isWordStart]
    rw [isPlain, toList_scalar_array, Bool.and_assoc, hnone, Bool.and_false]
  | object fs => exact (by decide : isPlain "\x7b\x7d" = false)

/-! ## Scalars without quotes -/

/-- The characters that start or end a list, an item or a quoted text. -/
def marks : List Char := ['"', '[', ']', ',']

/-- A value that is written with none of the marks. -/
structure IsBareScalar (v : Json) : Prop where
  ne_nil : (scalar v).toList ≠ []
  unmarked : ∀ c ∈ (scalar v).toList, c ∉ marks

theorem not_mem_marks {p : Char → Bool} (hp : marks.any p = false) {c : Char} (h : p c = true) : c ∉ marks :=
  fun hc => Bool.false_ne_true (hp.symm.trans (List.any_eq_true.mpr ⟨c, hc, h⟩))

theorem not_mem_marks_of_isNumeralChar {c : Char} (h : IsNumeralChar c) : c ∉ marks := by
  refine not_mem_marks (p := fun c => c.isDigit || ['-', '+', '.', 'e'].contains c) (by decide) ?_
  rcases h with hdigit | hsign
  · exact Bool.or_eq_true_iff.mpr (.inl hdigit)
  · exact Bool.or_eq_true_iff.mpr (.inr (List.contains_iff_mem.mpr hsign))

theorem not_mem_marks_of_isPlain {s : String} (h : isPlain s = true) : ∀ c ∈ s.toList, c ∉ marks := by
  have hkinds := (Bool.and_eq_true_iff.mp h).2
  simp only [Bool.or_eq_true] at hkinds
  rcases hkinds with (hhex | hpercent) | hword
  · obtain ⟨ds, hs, -, hdigits⟩ := exists_of_isHexNumber hhex
    rw [hs]
    refine List.forall_mem_cons.mpr ⟨by decide, List.forall_mem_cons.mpr ⟨by decide, fun d hd => ?_⟩⟩
    exact not_mem_marks (by decide) (hdigits d hd)
  · obtain ⟨c, ds, hs, hdigits⟩ := exists_of_isPercentage hpercent
    rw [hs, ← List.cons_append]
    refine List.forall_mem_append.mpr ⟨fun d hd => ?_, List.forall_mem_singleton.mpr (by decide)⟩
    exact not_mem_marks (by decide) (hdigits d hd)
  · intro c hc hmark
    have hstart : marks.any isWordStart = false := by decide
    have hpart : marks.any isWordPart = false := by decide
    exact IsName.not_mem hword (Bool.eq_false_iff.mpr (List.any_eq_false.mp hstart c hmark))
      (Bool.eq_false_iff.mpr (List.any_eq_false.mp hpart c hmark)) hc

theorem isBareScalar_string {s : String} (h : isPlain s = true) : IsBareScalar (.string s) := by
  have htext : scalar (.string s) = s := by
    rw [scalar, stringText, h, Bool.or_true, if_pos rfl]
  constructor
  · rw [htext]
    intro hnil
    simp [isPlain, String.toList_eq_nil_iff.mp hnil] at h
  · rw [htext]
    exact not_mem_marks_of_isPlain h

theorem isBareScalar_whole (i : Int) : IsBareScalar (.number (.whole i)) :=
  ⟨intText_ne_nil i, fun _ hc => not_mem_marks_of_isNumeralChar (isNumeralChar_intText hc)⟩

theorem isBareScalar_of_any {v : Json} (hne : (scalar v).toList ≠ [])
    (hmarks : (scalar v).toList.any marks.contains = false) : IsBareScalar v :=
  ⟨hne, fun c hc hmark => List.any_eq_false.mp hmarks c hc (List.contains_iff_mem.mpr hmark)⟩

theorem isBareScalar_null : IsBareScalar .null := isBareScalar_of_any (by decide) (by decide)

theorem isBareScalar_bool (b : Bool) : IsBareScalar (.bool b) := by
  cases b with
  | false => exact isBareScalar_of_any (by decide) (by decide)
  | true => exact isBareScalar_of_any (by decide) (by decide)

/-- A value is written bare, as a quoted string, or as a list. -/
theorem IsUntagged.cases_scalar {v : Json} (h : IsUntagged v) :
    IsBareScalar v ∨ (∃ s, v = .string s ∧ scalar v = Json.quote s) ∨ ∃ vs, v = .array vs := by
  cases h with
  | null => exact .inl isBareScalar_null
  | bool b => exact .inl (isBareScalar_bool b)
  | whole i => exact .inl (isBareScalar_whole i)
  | @string s htag =>
    cases hplain : isPlain s with
    | true => exact .inl (isBareScalar_string hplain)
    | false => exact .inr (.inl ⟨s, rfl, by rw [scalar, stringText, htag, hplain]; rfl⟩)
  | array _ => exact .inr (.inr ⟨_, rfl⟩)

theorem eq_of_intText {i j : Int} (h : intText i = intText j) : i = j := by
  have hi : readInt? (min i j) (max i j) (intText i).toList = some i := readInt?_intText (by omega) (by omega)
  have hj : readInt? (min i j) (max i j) (intText j).toList = some j := readInt?_intText (by omega) (by omega)
  exact Option.some.inj (hi.symm.trans (h ▸ hj))

/-- The text of a number is none of the words for null and for truth values. -/
theorem intText_not_mem_words (i : Int) : intText i ∉ ["null", "true", "false"] := by
  obtain ⟨c, cs, hcs, hc⟩ := exists_intText_cons i
  have hstart : ["null", "true", "false"].any (fun w => w.toList.head?.any fun d => d == '-' || d.isDigit) = false := by
    decide
  intro hmem
  refine List.any_eq_false.mp hstart _ hmem ?_
  rw [hcs]
  rcases hc with rfl | hc
  · rfl
  · exact Bool.or_eq_true_iff.mpr (.inr hc)

theorem IsBareScalar.isPlain {s : String} (h : IsBareScalar (.string s)) (htag : startsWith "!lambda" s = false) :
    isPlain s = true ∧ scalar (.string s) = s := by
  cases hplain : Yaml.isPlain s with
  | true => exact ⟨rfl, by rw [scalar, stringText, hplain, Bool.or_true, if_pos rfl]⟩
  | false =>
    have hquoted : scalar (.string s) = Json.quote s := by rw [scalar, stringText, htag, hplain]; rfl
    have hquote : '"' ∈ (scalar (.string s)).toList := by
      rw [hquoted, Json.quote, String.toList_ofList]
      exact List.mem_cons_self
    exact absurd (by decide) (h.unmarked '"' hquote)

/-- A string and a value that is none differ in their bare texts. -/
theorem IsBareScalar.ne_string {s : String} {v : Json} (h : IsBareScalar (.string s))
    (htag : startsWith "!lambda" s = false) (hv : v.string? = none) : scalar (.string s) ≠ scalar v := by
  obtain ⟨hplain, htext⟩ := h.isPlain htag
  intro he
  rw [← htext, he, isPlain_scalar hv] at hplain
  exact Bool.false_ne_true hplain

theorem IsBareScalar.ne_array {v : Json} (h : IsBareScalar v) (vs : List Json) : scalar v ≠ scalar (.array vs) := by
  intro he
  have hopen : '[' ∈ (scalar v).toList := by
    rw [he, toList_scalar_array]
    exact List.mem_cons_self
  exact absurd (by decide) (h.unmarked '[' hopen)

/-- Bare texts tell values apart. -/
theorem eq_of_bare {v w : Json} (hv : IsUntagged v) (hw : IsUntagged w) (hbare : IsBareScalar v)
    (hbare' : IsBareScalar w) (h : scalar v = scalar w) : v = w := by
  have hword : ∀ i, scalar (.number (.whole i)) ∉ ["null", "true", "false"] := intText_not_mem_words
  cases hv with
  | array _ => exact absurd rfl (hbare.ne_array _)
  | @string s htag =>
    cases hw with
    | @string t htag' => rw [← (hbare.isPlain htag).2, h, (hbare'.isPlain htag').2]
    | _ => exact absurd h (hbare.ne_string htag rfl)
  | null =>
    cases hw with
    | null => rfl
    | bool b => cases b <;> exact absurd h (by decide)
    | whole i => exact absurd (h ▸ by decide) (hword i)
    | string htag => exact absurd h.symm (hbare'.ne_string htag rfl)
    | array _ => exact absurd h (hbare.ne_array _)
  | bool b =>
    cases hw with
    | null => cases b <;> exact absurd h (by decide)
    | bool b' => cases b <;> cases b' <;> first | rfl | exact absurd h (by decide)
    | whole i => exact absurd (h ▸ by cases b <;> decide) (hword i)
    | string htag => exact absurd h.symm (hbare'.ne_string htag rfl)
    | array _ => exact absurd h (hbare.ne_array _)
  | whole i =>
    cases hw with
    | null => exact absurd (h ▸ by decide) (hword i)
    | bool b => exact absurd (h ▸ by cases b <;> decide) (hword i)
    | whole j => exact congrArg (fun i => Json.number (.whole i)) (eq_of_intText h)
    | string htag => exact absurd h.symm (hbare'.ne_string htag rfl)
    | array _ => exact absurd h (hbare.ne_array _)

/-! ## Scalars inside of lists -/

/-- What may stand after a scalar: nothing, or the comma or the bracket after an item. -/
def ClosesItem (rest : List Char) : Prop := ∀ c ∈ rest.head?, c ∈ marks

theorem takeWhile_marks {cs rest : List Char} (h : ∀ c ∈ cs, c ∉ marks) (hrest : ClosesItem rest) :
    (cs ++ rest).takeWhile (fun c => !marks.contains c) = cs := by
  rw [List.takeWhile_append_of_pos fun c hc => by simp [h c hc]]
  cases rest with
  | nil => simp
  | cons c rest => rw [List.takeWhile_cons_of_neg (by simp [hrest c rfl]), List.append_nil]

/-- What stands after the first scalar of a list. -/
def afterItem (vs : List Json) (rest : List Char) : List Char :=
  match vs with
  | [] => ']' :: rest
  | v :: vs => ',' :: ' ' :: ((joined ", " (scalars (v :: vs))).toList ++ ']' :: rest)

theorem closesItem_afterItem (vs : List Json) (rest : List Char) : ClosesItem (afterItem vs rest) := by
  cases vs with
  | nil => exact fun c hc => by cases hc; decide
  | cons v vs => exact fun c hc => by cases hc; decide

theorem joined_scalars (v : Json) (vs : List Json) (rest : List Char) :
    (joined ", " (scalars (v :: vs))).toList ++ ']' :: rest = (scalar v).toList ++ afterItem vs rest := by
  cases vs with
  | nil => simp [scalars, joined, afterItem]
  | cons w vs => simp [scalars, joined, afterItem, String.intercalate_cons_cons]

/-- The text of a value determines the value, whatever follows the text. -/
def IsDetermined (v : Json) : Prop :=
  ∀ w rest rest', IsUntagged w → ClosesItem rest → ClosesItem rest' →
    (scalar v).toList ++ rest = (scalar w).toList ++ rest' → v = w ∧ rest = rest'

theorem head?_scalar_array (vs : List Json) (rest : List Char) :
    ((scalar (.array vs)).toList ++ rest).head? = some '[' := by
  rw [toList_scalar_array]
  rfl

theorem head?_quote (s : String) (rest : List Char) : ((Json.quote s).toList ++ rest).head? = some '"' := by
  rw [Json.quote, String.toList_ofList]
  rfl

theorem IsBareScalar.head? {v : Json} (h : IsBareScalar v) (rest : List Char) {c : Char} (hc : c ∈ marks) :
    ((scalar v).toList ++ rest).head? ≠ some c := by
  obtain ⟨d, cs, hcs⟩ := List.exists_cons_of_ne_nil h.ne_nil
  rw [hcs]
  intro he
  obtain rfl : d = c := Option.some.inj he
  exact h.unmarked d (by rw [hcs]; exact List.mem_cons_self) hc

theorem IsBareScalar.isDetermined {v : Json} (h : IsBareScalar v) (hv : IsUntagged v) : IsDetermined v := by
  intro w rest rest' hw hrest hrest' he
  rcases hw.cases_scalar with hbare | ⟨s, -, hquoted⟩ | ⟨ws, rfl⟩
  · have htext : scalar v = scalar w := by
      have htake := congrArg (List.takeWhile fun c => !marks.contains c) he
      rw [takeWhile_marks h.unmarked hrest, takeWhile_marks hbare.unmarked hrest'] at htake
      exact String.toList_inj.mp htake
    rw [htext] at he
    exact ⟨eq_of_bare hv hw h hbare htext, List.append_cancel_left he⟩
  · exact absurd (by rw [he, hquoted, head?_quote]) (h.head? rest (by decide : '"' ∈ marks))
  · exact absurd (by rw [he, head?_scalar_array]) (h.head? rest (by decide : '[' ∈ marks))

/-- A quoted text ends with its own quote. -/
theorem eq_of_quote_append {s t : String} {rest rest' : List Char}
    (h : (Json.quote s).toList ++ rest = (Json.quote t).toList ++ rest') : s = t ∧ rest = rest' := by
  have hscan : ∀ (u : String) (after : List Char),
      Json.scanText ((Json.quote u).toList ++ after).tail = .closed (.ok u.toList) after := by
    intro u after
    rw [Json.quote, String.toList_ofList, Json.stringChars, List.cons_append, List.cons_append, List.tail_cons,
      List.append_assoc]
    exact Json.scanText_escaped u.toList after
  have hboth := hscan s rest
  rw [h, hscan t rest'] at hboth
  injection hboth with htext hafter
  exact ⟨String.toList_inj.mp (Except.ok.inj htext).symm, hafter.symm⟩

theorem isDetermined_quoted {s : String} (h : scalar (.string s) = Json.quote s) : IsDetermined (.string s) := by
  intro w rest rest' hw hrest hrest' he
  rw [h] at he
  rcases hw.cases_scalar with hbare | ⟨t, rfl, hquoted⟩ | ⟨ws, rfl⟩
  · exact absurd (by rw [← he, head?_quote]) (hbare.head? rest' (by decide : '"' ∈ marks))
  · rw [hquoted] at he
    obtain ⟨rfl, hafter⟩ := eq_of_quote_append he
    exact ⟨rfl, hafter⟩
  · exact absurd ((head?_quote s rest).symm.trans (he ▸ head?_scalar_array ws rest')) (by decide)

/-- No scalar starts with the bracket that ends a list. -/
theorem IsUntagged.head?_ne {v : Json} (h : IsUntagged v) (rest : List Char) :
    ((scalar v).toList ++ rest).head? ≠ some ']' := by
  rcases h.cases_scalar with hbare | ⟨s, -, hquoted⟩ | ⟨vs, rfl⟩
  · exact hbare.head? rest (by decide)
  · rw [hquoted, head?_quote]
    decide
  · rw [head?_scalar_array]
    decide

/-- The items of two lists with one text are the same, as far as the items of the first are determined. -/
theorem eq_of_items {vs ws : List Json} {rest rest' : List Char} (hvs : ∀ v ∈ vs, IsUntagged v)
    (hws : ∀ w ∈ ws, IsUntagged w) (hdetermined : ∀ v ∈ vs, IsDetermined v)
    (h : (joined ", " (scalars vs)).toList ++ ']' :: rest = (joined ", " (scalars ws)).toList ++ ']' :: rest') :
    vs = ws ∧ rest = rest' := by
  induction vs generalizing ws with
  | nil =>
    cases ws with
    | nil => exact ⟨rfl, (List.cons.inj h).2⟩
    | cons w ws =>
      rw [joined_scalars] at h
      exact absurd (congrArg List.head? h).symm ((hws w List.mem_cons_self).head?_ne _)
  | cons v vs ih =>
    obtain ⟨hv, hvs⟩ := List.forall_mem_cons.mp hvs
    obtain ⟨hdv, hdvs⟩ := List.forall_mem_cons.mp hdetermined
    rw [joined_scalars] at h
    cases ws with
    | nil => exact absurd (congrArg List.head? h) (hv.head?_ne _)
    | cons w ws =>
      obtain ⟨hw, hws'⟩ := List.forall_mem_cons.mp hws
      rw [joined_scalars] at h
      obtain ⟨rfl, hafter⟩ := hdv w _ _ hw (closesItem_afterItem vs rest) (closesItem_afterItem ws rest') h
      -- both lists end here, or both go on behind a comma
      rcases vs with _ | ⟨v', vs⟩ <;> rcases ws with _ | ⟨w', ws⟩
      · exact ⟨rfl, (List.cons.inj hafter).2⟩
      · exact absurd (List.cons.inj hafter).1 (by decide)
      · exact absurd (List.cons.inj hafter).1 (by decide)
      · obtain ⟨hitems, hrest⟩ := ih hvs hws' hdvs (List.cons.inj (List.cons.inj hafter).2).2
        exact ⟨congrArg (v :: ·) hitems, hrest⟩

theorem IsUntagged.isDetermined {v : Json} (hv : IsUntagged v) : IsDetermined v := by
  induction hv with
  | null => exact isBareScalar_null.isDetermined .null
  | bool b => exact (isBareScalar_bool b).isDetermined (.bool b)
  | whole i => exact (isBareScalar_whole i).isDetermined (.whole i)
  | @string s htag =>
    rcases (IsUntagged.string htag).cases_scalar with hbare | ⟨t, ht, hquoted⟩ | ⟨vs, hlist⟩
    · exact hbare.isDetermined (.string htag)
    · obtain rfl := Json.string.inj ht
      exact isDetermined_quoted hquoted
    · exact nomatch hlist
  | @array vs hvs ih =>
    intro w rest rest' hw hrest hrest' he
    rcases hw.cases_scalar with hbare | ⟨t, -, hquoted⟩ | ⟨ws, rfl⟩
    · exact absurd (by rw [← he, head?_scalar_array]) (hbare.head? rest' (by decide : '[' ∈ marks))
    · exact absurd ((head?_scalar_array vs rest).symm.trans (by rw [he, hquoted, head?_quote])) (by decide)
    · cases hw with
      | array hws =>
        simp only [toList_scalar_array, List.cons_append, List.append_assoc, List.nil_append, List.cons.injEq,
          true_and] at he
        obtain ⟨rfl, hafter⟩ := eq_of_items hvs hws ih he
        exact ⟨rfl, hafter⟩

theorem startsWith_scalar {v : Json} (hv : IsUntagged v) (h : v.string? = none) :
    startsWith "!lambda" (scalar v) = false := by
  refine Bool.eq_false_iff.mpr fun htag => ?_
  obtain ⟨cs, hcs⟩ := exists_of_startsWith htag
  have hhead : (scalar v).toList.head? = some '!' := by rw [hcs]; rfl
  cases hv with
  | null => exact absurd hhead (by decide)
  | bool b => exact absurd hhead (by cases b <;> decide)
  | whole i =>
    exact absurd (isNumeralChar_intText (List.mem_of_head? hhead)) (by simp [IsNumeralChar])
  | string _ => exact nomatch h
  | array _ => exact absurd (toList_scalar_array _ ▸ hhead) (by simp)

/-- Values are told apart by their scalars, and what is written for a value that is no string is written between
quotes for the string. -/
theorem scalar_eq_iff {v w : Json} (hv : IsUntagged v) (hw : IsUntagged w) :
    (scalar v = scalar w ↔ v = w) ∧ (v.string? = none → stringText (scalar v) = Json.quote (scalar v)) := by
  refine ⟨⟨fun h => ?_, fun h => h ▸ rfl⟩, fun hstring => ?_⟩
  · exact (hv.isDetermined w [] [] hw nofun nofun (by rw [h])).1
  · rw [stringText, startsWith_scalar hv hstring, isPlain_scalar hstring]
    rfl

theorem scalar_eq_iff_nested :
    IsUntagged (.array [.array [.ofInt 1, .string "2, 3"], .string "null"]) ∧
      IsUntagged (.array [.array [.ofInt 1, .ofInt 2, .ofInt 3], .null]) ∧
      (scalar (.array [.array [.ofInt 1, .string "2, 3"], .string "null"]) =
          scalar (.array [.array [.ofInt 1, .ofInt 2, .ofInt 3], .null]) ↔
        Json.array [.array [.ofInt 1, .string "2, 3"], .string "null"] =
          .array [.array [.ofInt 1, .ofInt 2, .ofInt 3], .null]) ∧
      (Json.string? (.array [.array [.ofInt 1, .string "2, 3"], .string "null"]) = none →
        stringText (scalar (.array [.array [.ofInt 1, .string "2, 3"], .string "null"])) =
          Json.quote (scalar (.array [.array [.ofInt 1, .string "2, 3"], .string "null"]))) := by
  have hstrings : IsUntagged (.array [.array [.ofInt 1, .string "2, 3"], .string "null"]) :=
    .array (List.forall_mem_cons.mpr ⟨.array (List.forall_mem_cons.mpr ⟨.whole 1,
      List.forall_mem_singleton.mpr (.string (by decide))⟩), List.forall_mem_singleton.mpr (.string (by decide))⟩)
  have hnumbers : IsUntagged (.array [.array [.ofInt 1, .ofInt 2, .ofInt 3], .null]) :=
    .array (List.forall_mem_cons.mpr ⟨.array (List.forall_mem_cons.mpr ⟨.whole 1,
      List.forall_mem_cons.mpr ⟨.whole 2, List.forall_mem_singleton.mpr (.whole 3)⟩⟩),
      List.forall_mem_singleton.mpr .null⟩)
  exact ⟨hstrings, hnumbers, scalar_eq_iff hstrings hnumbers⟩

end Dashboard.Yaml
