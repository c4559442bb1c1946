import Mathlib.Data.List.TakeWhile
import Dashboard.Proofs.Marker.Fields
/-!
# Fields that are written by hand

A marker that somebody wrote by hand may start with words that are no fields, it may have any blanks between
its fields, and its values may stand without quotes as long as nothing in them looks like the next field. All
its fields are read back in their order, whichever way each of them was written.
-/

namespace Dashboard.Marker

open Dashboard.Text

def AllBlank (cs : List Char) : Prop := ∀ c ∈ cs, isBlank c = true

instance (cs : List Char) : Decidable (AllBlank cs) := List.decidableBAll _ cs

/-- A word that is passed over, since it does not start with a key and a colon. -/
structure IsStray (w : List Char) : Prop where
  ne_nil : w ≠ []
  unbroken : ∀ c ∈ w, isBlank c = false
  keyless : ∀ key cs, IsKey key → w ≠ key ++ ':' :: cs

/-- A value that can stand without quotes although it may have blanks and quotes inside. -/
structure IsBare (v : List Char) : Prop where
  first : ∀ c ∈ v.head?, isBlank c = false
  last : ∀ c ∈ v.getLast?, isBlank c = false
  unquoted : v.head? ≠ some '"'
  keyless : ∀ before blank key after, isBlank blank = true → IsKey key →
    v ≠ before ++ blank :: (key ++ ':' :: after)

/-- The ways to write a value: between quotes where it needs them, or as it is. -/
inductive Writes (v : List Char) : List Char → Prop
  | encoded : Writes v (encodeChars v)
  | bare (h : IsBare v) : Writes v v

/-- Fields one after the other. What follows a field stands behind blanks. -/
inductive ListsFields : List (List Char × List Char) → List Char → Prop
  | nil : ListsFields [] []
  | cons {key v text gap cs : List Char} {fields : List (List Char × List Char)} (hkey : IsKey key)
      (hv : Writes v text) (hgap : AllBlank gap) (hapart : cs ≠ [] → gap ≠ []) (h : ListsFields fields cs) :
      ListsFields ((key, v) :: fields) (key ++ ':' :: (text ++ (gap ++ cs)))

/-- Fields behind stray words. -/
inductive ListsBehindWords (fields : List (List Char × List Char)) : List Char → Prop
  | fields {cs : List Char} (h : ListsFields fields cs) : ListsBehindWords fields cs
  | word {w gap cs : List Char} (hw : IsStray w) (hgap : AllBlank gap) (hapart : cs ≠ [] → gap ≠ [])
      (h : ListsBehindWords fields cs) : ListsBehindWords fields (w ++ (gap ++ cs))

/-- A text of stray words and then of fields, with any blanks around and between them. -/
def Lists (fields : List (String × String)) (s : String) : Prop :=
  ∃ gap cs, AllBlank gap ∧ s.toList = gap ++ cs ∧
    ListsBehindWords (fields.map fun f => (f.1.toList, f.2.toList)) cs

/-- Nothing or a blank, so that a word before it ends there. -/
def AtBreak (rest : List Char) : Prop := rest = [] ∨ ∃ c cs, rest = c :: cs ∧ isBlank c = true

/-! ## Keys and colons -/

theorem skipBlank_allBlank {gap : List Char} (h : AllBlank gap) : skipBlank gap = [] :=
  List.dropWhile_eq_nil_iff.mpr h

theorem skipBlank_gap_key {gap key : List Char} (hgap : AllBlank gap) (hkey : IsKey key) (cs : List Char) :
    skipBlank (gap ++ (key ++ cs)) = key ++ cs := by
  rw [skipBlank_append hgap]
  cases key with
  | nil => exact absurd rfl hkey.1
  | cons c key => exact skipBlank_cons (isBlank_of_isKeyChar (hkey.2 c List.mem_cons_self)) _

/-- The next word is a key with its colon exactly if the text goes on like that. -/
theorem keyFollows_iff {cs : List Char} :
    keyFollows cs = true ↔ ∃ key rest, IsKey key ∧ skipBlank cs = key ++ ':' :: rest := by
  constructor
  · intro h
    unfold keyFollows at h
    simp only at h
    split at h
    · rename_i c key rest hkey hrest
      refine ⟨c :: key, rest, ⟨List.cons_ne_nil c key, ?_⟩, ?_⟩
      · rw [← hkey]
        exact fun d hd => List.mem_takeWhile_imp hd
      · rw [← hkey, ← hrest, List.takeWhile_append_dropWhile]
    · exact nomatch h
  · rintro ⟨key, rest, hkey, hskip⟩
    rw [keyFollows, hskip]
    simp only [takeWhile_isKeyChar hkey, dropWhile_isKeyChar hkey]
    cases key with
    | nil => exact absurd rfl hkey.1
    | cons c key => rfl

theorem keyFollows_gap {gap key : List Char} (hgap : AllBlank gap) (hkey : IsKey key) (cs : List Char) :
    keyFollows (gap ++ (key ++ ':' :: cs)) = true :=
  keyFollows_iff.mpr ⟨key, cs, hkey, skipBlank_gap_key hgap hkey _⟩

theorem keyFollows_allBlank {gap : List Char} (h : AllBlank gap) : keyFollows gap = false := by
  rw [keyFollows, skipBlank_allBlank h]
  rfl

/-! ## Values without quotes -/

/-- What may stand after a value: blanks to the end of the text, or blanks and the next field. -/
inductive ClosesValue : List Char → Prop
  | blank {gap : List Char} (h : AllBlank gap) : ClosesValue gap
  | field {gap key : List Char} (hgap : AllBlank gap) (hne : gap ≠ []) (hkey : IsKey key) (cs : List Char) :
      ClosesValue (gap ++ (key ++ ':' :: cs))

theorem ClosesValue.atBreak {rest : List Char} (h : ClosesValue rest) : AtBreak rest := by
  cases h with
  | blank hgap =>
    cases rest with
    | nil => exact .inl rfl
    | cons c gap => exact .inr ⟨c, gap, rfl, hgap c List.mem_cons_self⟩
  | @field gap key hgap hne hkey cs =>
    cases gap with
    | nil => exact absurd rfl hne
    | cons c gap => exact .inr ⟨c, _, rfl, hgap c List.mem_cons_self⟩

/-- What starts a text and has no blank lies before the first blank of the text. -/
theorem prefix_of_append {start u rest cs : List Char} (hstart : ∀ c ∈ start, isBlank c = false)
    (hrest : AtBreak rest) (h : u ++ rest = start ++ cs) :
    ∃ cs', u = start ++ cs' := by
  rcases List.append_eq_append_iff.mp h with ⟨as, hlonger, has⟩ | ⟨bs, hshorter, -⟩
  · cases as with
    | nil => exact ⟨[], by rw [hlonger, List.append_nil, List.append_nil]⟩
    | cons a as =>
      rcases hrest with rfl | ⟨b, r, rfl, hb⟩
      · exact nomatch has
      · obtain rfl : b = a := (List.cons.inj has).1
        have hmem : b ∈ start := by rw [hlonger]; simp
        exact absurd (hstart b hmem) (by simp [hb])
  · exact ⟨bs, hshorter⟩

theorem isBlank_of_mem_key_colon {key : List Char} (hkey : IsKey key) : ∀ c ∈ key ++ [':'], isBlank c = false := by
  intro c hc
  rcases List.mem_append.mp hc with hc | hc
  · exact isBlank_of_isKeyChar (hkey.2 c hc)
  · rw [List.mem_singleton.mp hc]
    decide

/-- No blank inside a bare value is followed by a key, whatever stands after the value. -/
theorem IsBare.keyFollows {v before cs rest : List Char} {b : Char} (hv : IsBare v) (hcut : v = before ++ b :: cs)
    (hb : isBlank b = true) (hrest : AtBreak rest) :
    keyFollows (b :: (cs ++ rest)) = false := by
  refine Bool.eq_false_iff.mpr fun h => ?_
  obtain ⟨key, after, hkey, hskip⟩ := keyFollows_iff.mp h
  -- the value ends in no blank, so some word of it stands after `b`
  rcases skipBlank_cases (b :: cs) with hnil | ⟨c, word, hword, hc⟩
  · obtain ⟨l, hl⟩ : ∃ l, (b :: cs).getLast? = some l := ⟨_, List.getLast?_eq_some_getLast (List.cons_ne_nil b cs)⟩
    have hlast : v.getLast? = (b :: cs).getLast? := by rw [hcut, List.getLast?_append, hl, Option.some_or]
    have hblank : isBlank l = true := List.dropWhile_eq_nil_iff.mp hnil l (List.mem_of_getLast? hl)
    exact absurd (hv.last l (hlast.trans hl)) (by simp [hblank])
  · obtain ⟨gap, hgap, hblanks⟩ : ∃ gap, b :: cs = gap ++ c :: word ∧ AllBlank gap := by
      refine ⟨(b :: cs).takeWhile isBlank, ?_, fun d hd => List.mem_takeWhile_imp hd⟩
      rw [← hword]
      exact List.takeWhile_append_dropWhile.symm
    have hstart : (c :: word) ++ rest = (key ++ [':']) ++ after := by
      rw [← List.cons_append, hgap, List.append_assoc, skipBlank_append hblanks, List.cons_append,
        skipBlank_cons hc] at hskip
      rw [List.cons_append, hskip, List.append_assoc]
      rfl
    obtain ⟨tail, htail⟩ := prefix_of_append (isBlank_of_mem_key_colon hkey) hrest hstart
    -- the last of the blanks stands directly before the key
    rcases List.eq_nil_or_concat gap with rfl | ⟨front, last, rfl⟩
    · obtain rfl : b = c := (List.cons.inj hgap).1
      exact absurd hb (by simp [hc])
    · refine hv.keyless (before ++ front) last key tail (hblanks last (by simp)) hkey ?_
      rw [hcut, hgap, htail]
      simp

/-- The reader of plain values goes through a text in which no blank is followed by a key. -/
theorem plainValue_through {u rest : List Char}
    (h : ∀ before b cs, u = before ++ b :: cs → isBlank b = true → keyFollows (b :: (cs ++ rest)) = false) :
    plainValue (u ++ rest) = (u ++ (plainValue rest).1, (plainValue rest).2) := by
  induction u with
  | nil => rfl
  | cons c u ih =>
    have hrest := ih fun before b cs hcut => h (c :: before) b cs (by rw [hcut, List.cons_append])
    have hgoes : (isBlank c && Marker.keyFollows (c :: (u ++ rest))) = false := by
      cases hc : isBlank c with
      | false => rfl
      | true => exact h [] c u rfl hc
    rw [List.cons_append, plainValue, hgoes, hrest]
    rfl

theorem plainValue_allBlank {gap : List Char} (h : AllBlank gap) : plainValue gap = (gap, []) := by
  have hthrough := @plainValue_through gap [] fun before b cs hcut _ => by
    rw [List.append_nil]
    refine keyFollows_allBlank fun c hc => h c ?_
    rw [hcut]
    exact List.mem_append_right _ hc
  rwa [List.append_nil, plainValue, List.append_nil] at hthrough

/-- A bare value is read up to what closes it; blanks at the end of the text are taken along. -/
theorem plainValue_bare {v rest : List Char} (hv : IsBare v) (h : ClosesValue rest) :
    plainValue (v ++ rest) = (v ++ rest, []) ∧ AllBlank rest ∨ plainValue (v ++ rest) = (v, rest) := by
  rw [plainValue_through fun before b cs hcut hb => hv.keyFollows hcut hb h.atBreak]
  cases h with
  | blank hgap => exact .inl ⟨by rw [plainValue_allBlank hgap], hgap⟩
  | @field gap key hgap hne hkey cs =>
    cases gap with
    | nil => exact absurd rfl hne
    | cons b gap =>
      have hstops : (isBlank b && Marker.keyFollows (b :: (gap ++ (key ++ ':' :: cs)))) = true := by
        rw [hgap b List.mem_cons_self]
        exact keyFollows_gap hgap hkey cs
      refine .inr ?_
      rw [List.cons_append, plainValue, hstops, if_pos rfl, List.append_nil]

theorem trimChars_append_gap {v gap : List Char} (hv : IsBare v) (hgap : AllBlank gap) :
    trimChars (v ++ gap) = v := by
  rcases List.eq_nil_or_concat v with rfl | ⟨front, l, rfl⟩
  · rw [List.nil_append, trimChars, skipBlank_allBlank hgap]
    rfl
  · rw [List.concat_eq_append] at hv ⊢
    have hl : isBlank l = false := hv.last l (by simp)
    have hskip : skipBlank (front ++ [l] ++ gap) = front ++ [l] ++ gap := by
      cases front with
      | nil => exact skipBlank_cons hl gap
      | cons c front => exact skipBlank_cons (hv.first c rfl) _
    rw [trimChars, hskip, List.append_assoc, List.singleton_append, dropBlankEnd_append hl, dropBlankEnd,
      skipBlank_allBlank fun c hc => hgap c (List.mem_reverse.mp hc)]
    rfl

theorem value_of_unquoted {cs : List Char} (h : cs.head? ≠ some '"') :
    value cs = (trimChars (plainValue cs).1, (plainValue cs).2) := by
  rw [value]
  rintro rest rfl
  exact h rfl

theorem isBare_of_needsQuotes {v : List Char} (h : needsQuotes v = false) : IsBare v := by
  obtain ⟨-, hplain⟩ := plain_of_needsQuotes h
  refine ⟨fun c hc => (hplain c (List.mem_of_head? hc)).1, fun c hc => (hplain c (List.mem_of_getLast? hc)).1,
    fun hc => ?_, fun before b key after hb _ hcut => ?_⟩
  · exact (hplain _ (List.mem_of_head? hc)).2.2.1 rfl
  · have hmem : b ∈ v := by rw [hcut]; simp
    exact absurd (hplain b hmem).1 (by simp [hb])

theorem isBare_of_not_mem {v : List Char} (hfirst : v.head?.any isBlank = false)
    (hlast : v.getLast?.any isBlank = false) (hquote : v.head? ≠ some '"') (hcolon : ':' ∉ v) : IsBare v where
  first := fun c hc => by rwa [hc] at hfirst
  last := fun c hc => by rwa [hc] at hlast
  unquoted := hquote
  keyless := fun before b key after _ _ hcut => hcolon (by rw [hcut]; simp)

theorem isStray_of_not_mem {w : List Char} (hne : w ≠ []) (hunbroken : w.any isBlank = false) (hcolon : ':' ∉ w) :
    IsStray w where
  ne_nil := hne
  unbroken := fun c hc => Bool.eq_false_iff.mpr (List.any_eq_false.mp hunbroken c hc)
  keyless := fun key cs _ hcut => hcolon (by rw [hcut]; simp)

theorem value_bare {v rest : List Char} (hv : IsBare v) (h : ClosesValue rest) :
    value (v ++ rest) = (v, []) ∧ AllBlank rest ∨ value (v ++ rest) = (v, rest) := by
  have hhead : (v ++ rest).head? ≠ some '"' := by
    cases v with
    | nil =>
      intro hquote
      rcases h.atBreak with rfl | ⟨c, cs, rfl, hc⟩
      · exact nomatch hquote
      · obtain rfl : c = '"' := Option.some.inj hquote
        exact absurd hc (by decide)
    | cons c v => exact hv.unquoted
  rw [value_of_unquoted hhead]
  rcases plainValue_bare hv h with ⟨hplain, hrest⟩ | hplain
  · exact .inl ⟨by rw [hplain, trimChars_append_gap hv hrest], hrest⟩
  · have htrim : trimChars v = v := by
      have happend := @trimChars_append_gap v [] hv (List.forall_mem_nil _)
      rwa [List.append_nil] at happend
    exact .inr (by rw [hplain, htrim])

/-- A value is read back in whichever way it was written. -/
theorem value_writes {v text rest : List Char} (hv : Writes v text) (h : ClosesValue rest) :
    value (text ++ rest) = (v, []) ∧ AllBlank rest ∨ value (text ++ rest) = (v, rest) := by
  cases hv with
  | bare hbare => exact value_bare hbare h
  | encoded =>
    unfold encodeChars
    cases hq : needsQuotes v with
    | false =>
      rw [if_neg Bool.false_ne_true]
      exact value_bare (isBare_of_needsQuotes hq) h
    | true =>
      rw [if_pos rfl, List.append_assoc, List.cons_append]
      exact .inr (quotedValue_escaped v rest)

/-! ## Words and fields -/

/-- One field is read, and then what follows its value. -/
theorem fieldsWithin_field {gap key : List Char} (hgap : AllBlank gap) (hkey : IsKey key) (cs : List Char) (n : Nat) :
    fieldsWithin (n + 1) (gap ++ (key ++ ':' :: cs)) = (key, (value cs).1) :: fieldsWithin n (value cs).2 := by
  rw [fieldsWithin, skipBlank_gap_key hgap hkey]
  simp only [takeWhile_isKeyChar hkey, dropWhile_isKeyChar hkey]
  cases key with
  | nil => exact absurd rfl hkey.1
  | cons c key => rfl

theorem fieldsWithin_allBlank {gap : List Char} (h : AllBlank gap) (n : Nat) : fieldsWithin n gap = [] := by
  cases n with
  | zero => rfl
  | succ n =>
    rw [fieldsWithin, skipBlank_allBlank h]
    rfl

theorem dropWhile_append_gap {p : Char → Bool} (hp : ∀ c, isBlank c = true → p c = false) (w : List Char)
    {rest : List Char} (hrest : AtBreak rest) :
    (w ++ rest).dropWhile p = w.dropWhile p ++ rest := by
  have hstop : rest.dropWhile p = rest := by
    rcases hrest with rfl | ⟨c, cs, rfl, hc⟩
    · rfl
    · exact List.dropWhile_cons_of_neg (by simp [hp c hc])
  rw [List.dropWhile_append, hstop]
  split
  · rename_i hempty
    rw [List.isEmpty_iff.mp hempty, List.nil_append]
  · rfl

/-- One stray word is passed over. -/
theorem fieldsWithin_word {gap w rest : List Char} (hgap : AllBlank gap) (hw : IsStray w)
    (hrest : AtBreak rest) (n : Nat) :
    fieldsWithin (n + 1) (gap ++ (w ++ rest)) = fieldsWithin n rest := by
  have hskip : skipBlank (gap ++ (w ++ rest)) = w ++ rest := by
    rw [skipBlank_append hgap]
    cases w with
    | nil => exact absurd rfl hw.ne_nil
    | cons c w => exact skipBlank_cons (hw.unbroken c List.mem_cons_self) _
  have hkeyless : ∀ key cs, IsKey key → w ++ rest ≠ key ++ ':' :: cs := by
    intro key cs hkey h
    have hcolon : w ++ rest = (key ++ [':']) ++ cs := by rw [h, List.append_assoc]; rfl
    obtain ⟨tail, htail⟩ := prefix_of_append (isBlank_of_mem_key_colon hkey) hrest hcolon
    exact hw.keyless key tail hkey (by rw [htail, List.append_assoc]; rfl)
  have hdrop : (w ++ rest).dropWhile isKeyChar = w.dropWhile isKeyChar ++ rest :=
    dropWhile_append_gap (fun c hc => Bool.eq_false_iff.mpr fun hkey => by
      simp [isBlank_of_isKeyChar hkey] at hc) w hrest
  have hleft : (w.dropWhile isKeyChar ++ rest).dropWhile (fun c => !isBlank c) = rest := by
    rw [dropWhile_append_gap (fun c hc => by simp [hc]) _ hrest, List.dropWhile_eq_nil_iff.mpr, List.nil_append]
    intro c hc
    rw [hw.unbroken c ((List.dropWhile_sublist _).subset hc)]
    rfl
  rw [fieldsWithin, hskip]
  simp only
  split
  · rename_i c key cs hkey hcs
    refine absurd ?_ (hkeyless (c :: key) cs ⟨List.cons_ne_nil c key, ?_⟩)
    · rw [← hkey, ← hcs, List.takeWhile_append_dropWhile]
    · rw [← hkey]
      exact fun d hd => List.mem_takeWhile_imp hd
  · rename_i hnil
    obtain ⟨-, rfl⟩ := List.append_eq_nil_iff.mp (hdrop.symm.trans hnil)
    exact (fieldsWithin_allBlank (List.forall_mem_nil _) n).symm
  · rw [hdrop, hleft]

theorem ListsFields.closesValue {fields : List (List Char × List Char)} {gap cs : List Char}
    (h : ListsFields fields cs) (hgap : AllBlank gap) (hapart : cs ≠ [] → gap ≠ []) : ClosesValue (gap ++ cs) := by
  cases h with
  | nil =>
    rw [List.append_nil]
    exact .blank hgap
  | cons hkey _ _ _ _ => exact .field hgap (hapart (by simp)) hkey _

/-- Fields are read back one by one, with enough steps for what is left of the text. -/
theorem fieldsWithin_listsFields {fields : List (List Char × List Char)} {cs : List Char} (h : ListsFields fields cs) :
    ∀ {gap : List Char} {n : Nat}, AllBlank gap → (gap ++ cs).length < n → fieldsWithin n (gap ++ cs) = fields := by
  induction h with
  | nil =>
    intro gap n hgap _
    rw [List.append_nil]
    exact fieldsWithin_allBlank hgap n
  | @cons key v text gap' cs fields hkey hv hgap' hapart h ih =>
    intro gap n hgap hn
    obtain ⟨n, rfl⟩ : ∃ m, n = m + 1 := ⟨n - 1, by omega⟩
    have hlength : (gap' ++ cs).length < n := by
      simp only [List.length_append, List.length_cons] at hn ⊢
      omega
    rw [fieldsWithin_field hgap hkey]
    rcases value_writes hv (h.closesValue hgap' hapart) with ⟨hvalue, hblank⟩ | hvalue
    · rw [hvalue, ← ih hgap' hlength, fieldsWithin_allBlank hblank, fieldsWithin_allBlank (List.forall_mem_nil _)]
    · rw [hvalue, ih hgap' hlength]

theorem atBreak_gap {gap cs : List Char} (hgap : AllBlank gap) (hapart : cs ≠ [] → gap ≠ []) :
    AtBreak (gap ++ cs) := by
  cases gap with
  | nil => exact .inl (Decidable.not_not.mp fun hne => hapart hne rfl)
  | cons c gap => exact .inr ⟨c, gap ++ cs, rfl, hgap c List.mem_cons_self⟩

theorem fieldsWithin_listsBehindWords {fields : List (List Char × List Char)} {cs : List Char}
    (h : ListsBehindWords fields cs) :
    ∀ {gap : List Char} {n : Nat}, AllBlank gap → (gap ++ cs).length < n → fieldsWithin n (gap ++ cs) = fields := by
  induction h with
  | fields h => exact fieldsWithin_listsFields h
  | @word w gap' cs hw hgap' hapart _ ih =>
    intro gap n hgap hn
    obtain ⟨n, rfl⟩ : ∃ m, n = m + 1 := ⟨n - 1, by omega⟩
    have hword : 0 < w.length := List.length_pos_iff.mpr hw.ne_nil
    have hlength : (gap' ++ cs).length < n := by
      simp only [List.length_append] at hn ⊢
      omega
    rw [fieldsWithin_word hgap hw (atBreak_gap hgap' hapart), ih hgap' hlength]

/-- Whatever words stand in front and however the fields are written and set apart, the fields of a text are the
fields that it lists. -/
theorem fieldsOf_of_lists {fields : List (String × String)} {s : String} (h : Lists fields s) :
    fieldsOf s.toList = fields := by
  obtain ⟨gap, cs, hgap, hs, hlists⟩ := h
  rw [fieldsOf, fieldChars, hs, fieldsWithin_listsBehindWords hlists hgap (Nat.lt_succ_self _), List.map_map]
  refine (List.map_congr_left fun f _ => ?_).trans (List.map_id fields)
  exact Prod.ext String.ofList_toList String.ofList_toList

theorem fieldsOf_of_lists_greeting :
    Lists [("text", "Hello \"World\""), ("note", "at: 12:30"), ("empty", ""), ("align", "LEFT")]
        "stray :word  text:Hello \"World\" note:\"at: 12:30\" empty:\talign:LEFT " ∧
      fieldsOf "stray :word  text:Hello \"World\" note:\"at: 12:30\" empty:\talign:LEFT ".toList =
        [("text", "Hello \"World\""), ("note", "at: 12:30"), ("empty", ""), ("align", "LEFT")] := by
  have hword : IsStray "stray".toList := isStray_of_not_mem (by decide) (by decide) (by decide)
  have hcolon : IsStray ":word".toList := by
    have hunbroken : ":word".toList.any isBlank = false := by decide
    refine ⟨by decide, fun c hc => Bool.eq_false_iff.mpr (List.any_eq_false.mp hunbroken c hc), fun key cs hkey h => ?_⟩
    cases key with
    | nil => exact hkey.1 rfl
    | cons c key =>
      obtain rfl : c = ':' := (List.cons.inj (h.symm.trans (by decide : ":word".toList = ':' :: "word".toList))).1
      exact absurd (hkey.2 ':' List.mem_cons_self) (by decide)
  have hbare : IsBare "Hello \"World\"".toList :=
    isBare_of_not_mem (by decide) (by decide) (by decide) (by decide)
  have hempty : IsBare "".toList := isBare_of_not_mem (by decide) (by decide) (by decide) (by decide)
  have hfields : ListsFields _ _ :=
    .cons (by decide : IsKey "text".toList) (.bare hbare) (by decide : AllBlank [' ']) (fun _ => by decide)
      (.cons (by decide : IsKey "note".toList) (.encoded : Writes "at: 12:30".toList _) (by decide : AllBlank [' '])
        (fun _ => by decide)
        (.cons (by decide : IsKey "empty".toList) (.bare hempty) (by decide : AllBlank ['\t']) (fun _ => by decide)
          (.cons (by decide : IsKey "align".toList) (.encoded : Writes "LEFT".toList _) (by decide : AllBlank [' '])
            (fun _ => by decide) .nil)))
  have hlists : Lists [("text", "Hello \"World\""), ("note", "at: 12:30"), ("empty", ""), ("align", "LEFT")]
      "stray :word  text:Hello \"World\" note:\"at: 12:30\" empty:\talign:LEFT " :=
    ⟨[], _, List.forall_mem_nil _, by decide, .word hword (by decide : AllBlank [' ']) (fun _ => by decide)
      (.word hcolon (by decide : AllBlank [' ', ' ']) (fun _ => by decide) (.fields hfields))⟩
  exact ⟨hlists, fieldsOf_of_lists hlists⟩

end Dashboard.Marker
