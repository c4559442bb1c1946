import Dashboard.Proofs.Marker.Fields
import Dashboard.Proofs.Table
import Dashboard.Proofs.Text.Lines
import Dashboard.Resources
/-!
# What the constants of colors stand for

The constant of a color is named by the letters and digits of the color. Colors that share a constant have
the same triple, but for hexadecimal ones with a plus sign among their digits. So a table into which
nothing but colors was entered has, under the constant of a color without a plus sign, the triple of it.
-/

namespace Dashboard

open Text

namespace Color

/-- The letters and digits of a color, in lower case. -/
def letters (cs : List Char) : List Char := (cs.filter Char.isAlphanum).map Char.toLower

theorem letters_eq_of_constantName {a b : String} (h : Colors.constantName a = Colors.constantName b) :
    letters a.toList = letters b.toList := by
  have hchars := congrArg String.toList h
  simp only [Colors.constantName, String.toList_append, String.toList_ofList] at hchars
  exact List.append_cancel_left hchars

theorem isBlank_of_isAlphanum {c : Char} (h : c.isAlphanum = true) : isBlank c = false :=
  Marker.isBlank_of_isKeyChar (by rw [Marker.isKeyChar, h, Bool.true_or])

theorem filter_skipBlank (cs : List Char) :
    (skipBlank cs).filter Char.isAlphanum = cs.filter Char.isAlphanum := by
  induction cs with
  | nil => rfl
  | cons c cs ih =>
    cases hc : isBlank c with
    | false => rw [skipBlank_cons hc]
    | true =>
      have hletter : c.isAlphanum = false := Bool.eq_false_iff.mpr fun h => by
        rw [isBlank_of_isAlphanum h] at hc
        cases hc
      rw [skipBlank, List.dropWhile_cons_of_pos hc, ← skipBlank, ih,
        List.filter_cons_of_neg (by rw [hletter]; exact Bool.false_ne_true)]

theorem letters_trimChars (cs : List Char) : letters (trimChars cs) = letters cs := by
  rw [letters, trimChars, dropBlankEnd, List.filter_reverse, filter_skipBlank, List.filter_reverse,
    List.reverse_reverse, filter_skipBlank]
  rfl

/-! ## Letters and digits -/

theorem isAlphanum_iff {c : Char} : c.isAlphanum = true ↔ (65 ≤ c.toNat ∧ c.toNat ≤ 90) ∨
    (97 ≤ c.toNat ∧ c.toNat ≤ 122) ∨ (48 ≤ c.toNat ∧ c.toNat ≤ 57) := by
  delta Char.isAlphanum Char.isAlpha Char.isUpper Char.isLower Char.isDigit
  simp only [Bool.or_eq_true, Bool.and_eq_true, decide_eq_true_eq, UInt32.le_iff_toNat_le, or_assoc]
  exact Iff.rfl

theorem toNat_toLower {c : Char} (hlow : 65 ≤ c.toNat) (hhigh : c.toNat ≤ 90) :
    c.toLower.toNat = c.toNat + 32 := by
  have hupper : c.val ≥ 'A'.val ∧ c.val ≤ 'Z'.val := ⟨hlow, hhigh⟩
  have hval : c.toLower.val = c.val + ('a'.val - 'A'.val) := congrArg Char.val (dif_pos hupper)
  have h32 : ('a'.val - 'A'.val).toNat = 32 := rfl
  have hsmall : c.val.toNat ≤ 90 := hhigh
  change c.toLower.val.toNat = c.val.toNat + 32
  rw [hval, UInt32.toNat_add, h32, Nat.mod_eq_of_lt (by omega)]

theorem toLower_eq_self {c : Char} (h : ¬ (65 ≤ c.toNat ∧ c.toNat ≤ 90)) : c.toLower = c := dif_neg h

theorem isAlphanum_of_toLower {c : Char} (h : c.toLower.isAlphanum = true) : c.isAlphanum = true := by
  by_cases hupper : 65 ≤ c.toNat ∧ c.toNat ≤ 90
  · exact isAlphanum_iff.mpr (.inl hupper)
  · rwa [toLower_eq_self hupper] at h

/-! ## Names -/

/-- The names of colors that have triples. -/
def names : List String := ["black", "white", "red", "green", "blue", "yellow", "orange", "gray", "grey"]

theorem mem_names_of_ofName? {name : String} {rgb : Rgb} (h : ofName? name = some rgb) : name ∈ names := by
  by_contra hnot
  simp only [names, List.mem_cons, List.not_mem_nil, or_false, not_or] at hnot
  simp [ofName?, hnot] at h

/-- A color that is named in any case consists of letters only. -/
theorem isAlphanum_of_name {cs : List Char} {rgb : Rgb} (h : ofName? (lower (String.ofList cs)) = some rgb) :
    ∀ c ∈ cs, c.isAlphanum = true := by
  have hall : ∀ name ∈ names, name.toList.all Char.isAlphanum = true := by decide
  intro c hc
  apply isAlphanum_of_toLower
  apply List.all_eq_true.mp (hall _ (mem_names_of_ofName? h))
  rw [lower, String.toList_ofList, String.toList_ofList]
  exact List.mem_map_of_mem hc

theorem letters_of_name {cs : List Char} {rgb : Rgb} (h : ofName? (lower (String.ofList cs)) = some rgb) :
    letters cs = (lower (String.ofList cs)).toList := by
  rw [letters, List.filter_eq_self.mpr (isAlphanum_of_name h), lower, String.toList_ofList,
    String.toList_ofList]

/-! ## Hexadecimal triples -/

theorem hexValue?_toLower (c : Char) : Json.hexValue? c.toLower = Json.hexValue? c := by
  by_cases h : 65 ≤ c.toNat ∧ c.toNat ≤ 90
  · unfold Json.hexValue?
    rw [toNat_toLower h.1 h.2]
    simp only [Bool.and_eq_true, decide_eq_true_eq]
    split_ifs <;> first | rfl | omega
  · rw [toLower_eq_self h]

theorem toLower_eq_plus {c : Char} : c.toLower = '+' ↔ c = '+' := by
  by_cases h : 65 ≤ c.toNat ∧ c.toNat ≤ 90
  · constructor
    · intro heq
      have hnat := congrArg Char.toNat heq
      rw [toNat_toLower h.1 h.2] at hnat
      have hplus : '+'.toNat = 43 := rfl
      omega
    · rintro rfl
      exact absurd h (by decide)
  · rw [toLower_eq_self h]

theorem channel?_toLower (a b : Char) : channel? a.toLower b.toLower = channel? a b := by
  simp only [channel?, toLower_eq_plus, hexValue?_toLower]

/-- The case of hexadecimal digits is nothing to the triple. -/
theorem ofHex?_map_toLower (hex : List Char) : ofHex? (hex.map Char.toLower) = ofHex? hex := by
  unfold ofHex?
  rcases hex with _ | ⟨a, _ | ⟨b, _ | ⟨c, _ | ⟨d, _ | ⟨e, _ | ⟨f, _ | ⟨g, hex⟩⟩⟩⟩⟩⟩⟩
  case cons.cons.cons.cons.cons.cons.nil =>
    simp only [List.map_cons, List.map_nil, channel?_toLower]
  all_goals rfl

theorem isHexDigit_of_channel? {a b : Char} {n : UInt8} (h : channel? a b = some n) :
    (a = '+' ∨ (Json.hexValue? a).isSome) ∧ (Json.hexValue? b).isSome := by
  unfold channel? at h
  by_cases hplus : a = '+'
  · cases hb : Json.hexValue? b with
    | none => simp [hb] at h
    | some k => exact ⟨.inl hplus, rfl⟩
  · cases ha : Json.hexValue? a with
    | none => simp [hplus, ha] at h
    | some m =>
      cases hb : Json.hexValue? b with
      | none => simp [hplus, ha, hb] at h
      | some k => exact ⟨.inr rfl, rfl⟩

/-- A triple has six characters, which are hexadecimal digits and plus signs. -/
theorem chars_of_ofHex? {hex : List Char} {rgb : Rgb} (h : ofHex? hex = some rgb) :
    hex.length = 6 ∧ ∀ c ∈ hex, c = '+' ∨ (Json.hexValue? c).isSome := by
  unfold ofHex? at h
  split at h
  · next a b c d e f =>
    obtain ⟨red, hred, h⟩ := Option.bind_eq_some_iff.mp h
    obtain ⟨green, hgreen, h⟩ := Option.bind_eq_some_iff.mp h
    obtain ⟨blue, hblue, -⟩ := Option.bind_eq_some_iff.mp h
    obtain ⟨ha, hb⟩ := isHexDigit_of_channel? hred
    obtain ⟨hc, hd⟩ := isHexDigit_of_channel? hgreen
    obtain ⟨he, hf⟩ := isHexDigit_of_channel? hblue
    refine ⟨rfl, ?_⟩
    simp only [List.forall_mem_cons, List.not_mem_nil, false_implies, implies_true, and_true]
    exact ⟨ha, .inr hb, hc, .inr hd, he, .inr hf⟩
  · cases h

theorem isAlphanum_of_hexValue? {c : Char} (h : (Json.hexValue? c).isSome) : c.isAlphanum = true := by
  rw [isAlphanum_iff]
  simp only [Json.hexValue?, Bool.and_eq_true, decide_eq_true_eq] at h
  split_ifs at h with hdigit hlower hupper
  · exact .inr (.inr hdigit)
  · exact .inr (.inl ⟨hlower.1, Nat.le_trans hlower.2 (by decide)⟩)
  · exact .inl ⟨hupper.1, Nat.le_trans hupper.2 (by decide)⟩
  · cases h

/-- Whether a text has letters and digits that are all hexadecimal. -/
def IsHex (cs : List Char) : Prop := ∀ c ∈ cs, (Json.hexValue? c).isSome

theorem isHex_letters {hex : List Char} {rgb : Rgb} (h : ofHex? hex = some rgb) : IsHex (letters hex) := by
  intro c hc
  obtain ⟨d, hd, rfl⟩ := List.mem_map.mp hc
  obtain ⟨hmem, hletter⟩ := List.mem_filter.mp hd
  rw [hexValue?_toLower]
  refine ((chars_of_ofHex? h).2 d hmem).resolve_left ?_
  rintro rfl
  exact absurd hletter (by decide)

theorem not_isHex_name {name : String} (h : name ∈ names) : ¬ IsHex name.toList := by
  have hall : ∀ name ∈ names, name.toList.all (fun c => (Json.hexValue? c).isSome) = false := by decide
  intro hhex
  rw [IsHex, ← List.all_eq_true, hall name h] at hhex
  cases hhex

theorem letters_of_isHex {cs : List Char} (h : IsHex cs) : letters cs = cs.map Char.toLower := by
  rw [letters, List.filter_eq_self.mpr fun c hc => isAlphanum_of_hexValue? (h c hc)]

theorem isHex_of_plus_not_mem {hex : List Char} {rgb : Rgb} (h : ofHex? hex = some rgb) (hplus : '+' ∉ hex) :
    IsHex hex := by
  intro c hc
  refine ((chars_of_ofHex? h).2 c hc).resolve_left ?_
  rintro rfl
  exact hplus hc

/-- Triples with the same letters and digits are the same, if one of them has no plus sign. -/
theorem ofHex?_eq_of_letters {a b : List Char} {x y : Rgb} (ha : ofHex? a = some x) (hb : ofHex? b = some y)
    (hplus : '+' ∉ b) (h : letters a = letters b) : x = y := by
  have hlettersb := letters_of_isHex (isHex_of_plus_not_mem hb hplus)
  have hlength : (a.filter Char.isAlphanum).length = a.length := by
    have hcount := congrArg List.length (h.trans hlettersb)
    rw [letters, List.length_map, List.length_map] at hcount
    rw [hcount, (chars_of_ofHex? hb).1, (chars_of_ofHex? ha).1]
  have hall : a.filter Char.isAlphanum = a :=
    List.filter_eq_self.mpr (List.length_filter_eq_length_iff.mp hlength)
  have hlower : a.map Char.toLower = b.map Char.toLower := by
    rw [← hlettersb, ← h, letters, hall]
  rw [← ofHex?_map_toLower, hlower, ofHex?_map_toLower, hb] at ha
  exact (Option.some.inj ha).symm

/-! ## Colors -/

/-- A color with a triple is a number sign and a hexadecimal triple, or a name. -/
theorem rgb?_cases {color : String} {rgb : Rgb} (h : rgb? color = some rgb) :
    (∃ hex, trimChars color.toList = '#' :: hex ∧ ofHex? hex = some rgb ∧
      letters color.toList = letters hex) ∨
    ofName? (lower (trim color)) = some rgb ∧ letters color.toList = (lower (trim color)).toList := by
  rw [rgb?] at h
  rw [← letters_trimChars]
  split at h
  · next hex htrim =>
    rw [htrim]
    exact .inl ⟨hex, rfl, h, rfl⟩
  · exact .inr ⟨h, letters_of_name h⟩

/-- Colors that share a constant have the same triple, if one of them has no plus sign. -/
theorem rgb_eq_of_constantName {a b : String} {x y : Rgb} (ha : rgb? a = some x) (hb : rgb? b = some y)
    (hplus : '+' ∉ b.toList) (h : Colors.constantName a = Colors.constantName b) : x = y := by
  have hletters := letters_eq_of_constantName h
  rcases rgb?_cases ha with ⟨hexa, -, hhexa, hla⟩ | ⟨hnamea, hla⟩
  · rcases rgb?_cases hb with ⟨hexb, htrim, hhexb, hlb⟩ | ⟨hnameb, hlb⟩
    · refine ofHex?_eq_of_letters hhexa hhexb (fun hmem => hplus ?_) (hla.symm.trans (hletters.trans hlb))
      exact mem_of_mem_trimChars (htrim ▸ List.mem_cons_of_mem _ hmem)
    · have hhex := isHex_letters hhexa
      rw [← hla, hletters, hlb] at hhex
      exact absurd hhex (not_isHex_name (mem_names_of_ofName? hnameb))
  · rcases rgb?_cases hb with ⟨hexb, -, hhexb, hlb⟩ | ⟨hnameb, hlb⟩
    · have hhex := isHex_letters hhexb
      rw [← hlb, ← hletters, hla] at hhex
      exact absurd hhex (not_isHex_name (mem_names_of_ofName? hnamea))
    · have hsame : lower (trim a) = lower (trim b) :=
        String.toList_inj.mp (hla.symm.trans (hletters.trans hlb))
      rw [hsame, hnameb] at hnamea
      exact (Option.some.inj hnamea).symm

end Color

/-! ## Tables of constants -/

namespace Colors

/-- A table into which nothing but colors was entered. -/
inductive IsRegistered : Colors → Prop where
  | empty : IsRegistered []
  | constant {t : Colors} (h : IsRegistered t) (color : String) : IsRegistered (constant color t).2

theorem constant_of_rgb? {color : String} {rgb : Rgb} (h : Color.rgb? color = some rgb) (t : Colors) :
    constant color t = (constantName color, Table.putNew (constantName color) rgb t) := by
  rw [constant, h]

/-- Whatever color is entered, it is one with a triple. -/
theorem exists_constant_eq (color : String) (t : Colors) :
    ∃ known rgb, Color.rgb? known = some rgb ∧ constant color t = constant known t := by
  cases h : Color.rgb? color with
  | some rgb => exact ⟨color, rgb, h, rfl⟩
  | none =>
    have hblack : Color.rgb? "black" = some ⟨0, 0, 0⟩ := by decide
    refine ⟨"black", _, hblack, ?_⟩
    rw [constant_of_rgb? hblack, constant, h]

/-- Every entry of a table is the constant of a color with the triple of that color. -/
theorem IsRegistered.exists_color {t : Colors} (ht : t.IsRegistered) : ∀ e ∈ t,
    ∃ color, constantName color = e.1 ∧ Color.rgb? color = some e.2 := by
  induction ht with
  | empty => exact fun _ he => absurd he List.not_mem_nil
  | constant _ color ih =>
    obtain ⟨known, rgb, hknown, heq⟩ := exists_constant_eq color _
    rw [heq, constant_of_rgb? hknown]
    intro e he
    rcases Table.mem_putNew he with rfl | he
    · exact ⟨known, rfl, hknown⟩
    · exact ih e he

/-- A color without a plus sign is found under its constant, whatever was entered before. -/
theorem IsRegistered.find?_constant {t : Colors} (ht : t.IsRegistered) {color : String} {rgb : Rgb}
    (h : Color.rgb? color = some rgb) (hplus : '+' ∉ color.toList) :
    Table.find? (Colors.constant color t).2 (constantName color) = some rgb := by
  rw [constant_of_rgb? h, Table.putNew]
  split
  · next hkey =>
    obtain ⟨other, hother⟩ := Option.isSome_iff_exists.mp hkey
    obtain ⟨known, hname, hrgb⟩ := ht.exists_color _ (Table.mem_of_find? hother)
    exact hother.trans (congrArg some (Color.rgb_eq_of_constantName hrgb h hplus hname))
  · exact Table.find?_put_self _ _ _

end Colors

end Dashboard
