import Dashboard.Proofs.Kind.Constants
import Dashboard.Proofs.Rebuild.Drawings
/-!
# What registered names stand for

A registry answers every request with a name and keeps the first value that came under it. So after a
run of requests each name stands for what was asked for if requests of one name ask for one value. Colors of
one constant have one triple, but for hexadecimal ones with plus signs among their digits. Fonts of one id
differ in their families at most, and then in characters that the id has no place for.
-/

namespace Dashboard

/-! ## Runs of requests -/

namespace Table

variable {α β : Type}

/-- Enters requests one after another. The answers come back with the table in the end. -/
def enterAll (enter : β → Table α → String × Table α) : List β → Table α → List String × Table α
  | [], t => ([], t)
  | b :: bs, t =>
    let (name, t) := enter b t
    let (names, t) := enterAll enter bs t
    (name :: names, t)

/-- A way of entering that keeps the first value of each name. -/
def KeepsFirst (enter : β → Table α → String × Table α) (name : β → String) (value : β → α) : Prop :=
  ∀ b t, enter b t = (name b, putNew (name b) (value b) t)

theorem find?_putNew (key : String) (value : α) (t : Table α) (other : String) :
    find? (putNew key value t) other = (find? t other).or ([(key, value)].lookup other) := by
  by_cases hother : other = key
  · subst hother
    cases hfound : find? t other with
    | some first =>
      have hkey : t.hasKey other = true := Option.isSome_iff_exists.mpr ⟨first, hfound⟩
      rw [putNew, if_pos hkey, hfound, Option.some_or]
    | none =>
      have hkey : ¬ t.hasKey other = true := Option.not_isSome_iff_eq_none.mpr hfound
      rw [putNew, if_neg hkey, find?_put_self, Option.none_or, List.lookup_cons_self]
  · have hne : (other == key) = false := beq_eq_false_iff_ne.mpr hother
    have hkept : find? (putNew key value t) other = find? t other := by
      unfold putNew
      split
      · rfl
      · exact find?_put_of_ne value t hother
    rw [hkept, List.lookup_cons, hne, List.lookup_nil, Option.or_none]

variable {enter : β → Table α → String × Table α} {name : β → String} {value : β → α}

theorem KeepsFirst.enterAll_fst (h : KeepsFirst enter name value) (bs : List β) (t : Table α) :
    (enterAll enter bs t).1 = bs.map name := by
  induction bs generalizing t with
  | nil => rfl
  | cons b bs ih => simp only [enterAll, h b t, ih, List.map_cons]

/-- After a run the first request of a name counts, unless the name was taken before. -/
theorem KeepsFirst.find?_enterAll (h : KeepsFirst enter name value) (bs : List β) (t : Table α) (key : String) :
    find? (enterAll enter bs t).2 key =
      (find? t key).or ((bs.map fun b => (name b, value b)).lookup key) := by
  induction bs generalizing t with
  | nil => exact Option.or_none.symm
  | cons b bs ih =>
    simp only [enterAll, h b t]
    rw [ih, find?_putNew, Option.or_assoc, ← List.lookup_append, List.map_cons, List.singleton_append]

/-- A request finds under its name the value of a request of that name. -/
theorem KeepsFirst.exists_find? (h : KeepsFirst enter name value) {bs : List β} {b : β} (hb : b ∈ bs) :
    ∃ first ∈ bs, name first = name b ∧ find? (enterAll enter bs []).2 (name b) = some (value first) := by
  have hfound := h.find?_enterAll bs [] (name b)
  cases hlookup : (bs.map fun b => (name b, value b)).lookup (name b) with
  | none =>
    have hne := List.lookup_eq_none_iff.mp hlookup (name b, value b) (List.mem_map.mpr ⟨b, hb, rfl⟩)
    exact absurd hne (by simp)
  | some v =>
    obtain ⟨first, hfirst, heq⟩ := List.mem_map.mp (mem_of_find? hlookup)
    obtain ⟨hname, rfl⟩ := Prod.mk.inj heq
    exact ⟨first, hfirst, hname, hfound.trans hlookup⟩

theorem KeepsFirst.find?_eq (h : KeepsFirst enter name value) {bs : List β} {b : β} (hb : b ∈ bs)
    (hsame : ∀ a ∈ bs, name a = name b → value a = value b) :
    find? (enterAll enter bs []).2 (name b) = some (value b) := by
  obtain ⟨first, hfirst, hname, hfound⟩ := h.exists_find? hb
  rw [hfound, hsame first hfirst hname]

/-- All requests find their values exactly if those of one name ask for one value. -/
theorem KeepsFirst.forall_find?_iff (h : KeepsFirst enter name value) {bs : List β} :
    (∀ b ∈ bs, find? (enterAll enter bs []).2 (name b) = some (value b)) ↔
      ∀ a ∈ bs, ∀ b ∈ bs, name a = name b → value a = value b := by
  refine ⟨fun hall a ha b hb hname => ?_, fun hsame b hb => h.find?_eq hb fun a ha => hsame a ha b hb⟩
  have hfound := hall a ha
  rw [hname, hall b hb] at hfound
  exact (Option.some.inj hfound).symm

/-- What holds of all requests and their names holds of the requests and the answers, place by place. -/
theorem KeepsFirst.forall₂_iff (h : KeepsFirst enter name value) {bs : List β} {t : Table α}
    {R : β → String → Prop} :
    List.Forall₂ R bs (enterAll enter bs t).1 ↔ ∀ b ∈ bs, R b (name b) := by
  rw [h.enterAll_fst, List.forall₂_map_right_iff, List.forall₂_same]

end Table

/-! ## Colors -/

namespace Color

def drawn (color : String) : Rgb := (rgb? color).getD ⟨0, 0, 0⟩

/-- A color that is drawn in its own triple: the color itself, or black in place of an unknown one. -/
def known (color : String) : String := if (rgb? color).isSome then color else "black"

theorem rgb?_known (color : String) : rgb? (known color) = some (drawn color) := by
  have hblack : rgb? "black" = some ⟨0, 0, 0⟩ := by decide
  unfold known drawn
  cases h : rgb? color with
  | some rgb => simpa using h
  | none => simpa using hblack

theorem plus_mem_of_known {color : String} (h : '+' ∈ (known color).toList) :
    '+' ∈ color.toList ∧ rgb? color = some (drawn color) := by
  have hrgb := rgb?_known color
  unfold known at h hrgb
  split at h
  · next hsome =>
    rw [if_pos hsome] at hrgb
    exact ⟨h, hrgb⟩
  · exact absurd h (by decide)

/-- Hexadecimal colors with plus signs that have the same digits but different triples. -/
structure Clash (a b : String) : Prop where
  plus : '+' ∈ a.toList ∧ '+' ∈ b.toList
  constant : Colors.constantName a = Colors.constantName b
  triples : ∃ x y, rgb? a = some x ∧ rgb? b = some y ∧ x ≠ y

end Color

namespace Colors

open Color Table

theorem keepsFirst_constant : KeepsFirst constant (fun color => constantName (known color)) drawn := by
  intro color t
  unfold known drawn
  cases h : rgb? color with
  | some rgb => simp [constant, h]
  | none => simp [constant, h]

theorem drawn_eq_of_constantName {a b : String} (hname : constantName (known a) = constantName (known b))
    (hclash : ¬ Clash a b) : drawn a = drawn b := by
  -- without a plus sign in one of the names the triple is a function of the constant
  by_cases hb : '+' ∈ (known b).toList
  · by_cases ha : '+' ∈ (known a).toList
    · obtain ⟨haplus, harbg⟩ := plus_mem_of_known ha
      obtain ⟨hbplus, hbrgb⟩ := plus_mem_of_known hb
      have hknown : ∀ {c}, rgb? c = some (drawn c) → known c = c := fun h => by simp [known, h]
      rw [hknown harbg, hknown hbrgb] at hname
      by_contra hne
      exact hclash ⟨⟨haplus, hbplus⟩, hname, _, _, harbg, hbrgb, hne⟩
    · exact (rgb_eq_of_constantName (rgb?_known b) (rgb?_known a) ha hname.symm).symm
  · exact rgb_eq_of_constantName (rgb?_known a) (rgb?_known b) hb hname

theorem constantName_eq_of_clash {a b : String} (h : Clash a b) :
    constantName (known a) = constantName (known b) ∧ drawn a ≠ drawn b := by
  obtain ⟨-, hname, x, y, ha, hb, hne⟩ := h
  simp only [known, drawn, ha, hb]
  exact ⟨hname, hne⟩

/-- After any run of colors the constant of a color holds its triple, or black for an unknown color, if the
color clashes with none of the run. All of them hold their triples exactly if no two of the run clash. -/
theorem constants_hold (colors : List String) :
    List.Forall₂ (fun color name => (∀ other ∈ colors, ¬ Clash other color) →
        find? (enterAll constant colors []).2 name = some (drawn color))
      colors (enterAll constant colors []).1 ∧
    (List.Forall₂ (fun color name => find? (enterAll constant colors []).2 name = some (drawn color))
        colors (enterAll constant colors []).1 ↔
      ∀ a ∈ colors, ∀ b ∈ colors, ¬ Clash a b) := by
  refine ⟨keepsFirst_constant.forall₂_iff.mpr fun color hcolor hclash => ?_, ?_⟩
  · exact keepsFirst_constant.find?_eq hcolor fun a ha hname => drawn_eq_of_constantName hname (hclash a ha)
  · rw [keepsFirst_constant.forall₂_iff, keepsFirst_constant.forall_find?_iff]
    constructor
    · intro hall a ha b hb hclash
      obtain ⟨hname, hne⟩ := constantName_eq_of_clash hclash
      exact hne (hall a ha b hb hname)
    · exact fun hfree a ha b hb hname => drawn_eq_of_constantName hname (hfree a ha b hb)

/-- The sign of a digit is left out of the name. -/
theorem not_forall_constants_hold : ¬ ∀ colors : List String,
    List.Forall₂ (fun color name => find? (enterAll constant colors []).2 name = some (drawn color))
      colors (enterAll constant colors []).1 := by
  intro h
  have hall := keepsFirst_constant.forall_find?_iff.mp (keepsFirst_constant.forall₂_iff.mp (h ["#12+3+4", "#+123+4"]))
  exact absurd (hall "#12+3+4" (by decide) "#+123+4" (by decide) (by decide)) (by decide)

end Colors

/-! ## Fonts -/

namespace FontRequest

open Number

def familySlug (f : FontRequest) : List Char := f.family.toList.map slugChar

theorem numbered_inj {stem other : String} {n k : Nat}
    (h : stem ++ "_" ++ natText n = other ++ "_" ++ natText k) : stem = other ∧ n = k := by
  obtain rfl : n = k := EndsInNumber.unique (endsInNumber_natText stem n) ⟨other, h⟩
  rw [String.append_left_inj, String.append_left_inj] at h
  exact ⟨h, rfl⟩

theorem getLast?_natText (stem : String) (n : Nat) :
    ∃ c, (stem ++ natText n).toList.getLast? = some c ∧ c.isDigit = true := by
  have hne := digitsOf_ne_nil n
  refine ⟨(digitsOf n).getLast hne, ?_, isDigit_of_mem_digitsOf (List.getLast_mem hne)⟩
  rw [String.toList_append, natText, String.toList_ofList, List.getLast?_append_of_ne_nil _ hne,
    List.getLast?_eq_some_getLast hne]

theorem natText_ne_italic (stem other : String) (n : Nat) : stem ++ natText n ≠ other ++ "_italic" := by
  intro h
  obtain ⟨c, hc, hdigit⟩ := getLast?_natText stem n
  have hlast : (other ++ "_italic").toList.getLast? = some 'c' := by
    rw [String.toList_append, List.getLast?_append_of_ne_nil _ (by decide)]
    rfl
  rw [h, hlast] at hc
  cases hc
  exact absurd hdigit (by decide)

/-- The id tells everything of a font but the family, of which it tells the slug. -/
theorem id_eq_iff {f g : FontRequest} : f.id = g.id ↔
    f.familySlug = g.familySlug ∧ f.weight = g.weight ∧ f.size = g.size ∧ f.italic = g.italic := by
  constructor
  · intro h
    have hitalic : f.italic = g.italic := by
      cases hf : f.italic <;> cases hg : g.italic <;> simp only [id, hf, hg] at h ⊢
      · exact absurd h (by simpa using natText_ne_italic _ _ _)
      · exact absurd h.symm (by simpa using natText_ne_italic _ _ _)
    simp only [id, hitalic, String.append_left_inj] at h
    obtain ⟨h, hsize⟩ := numbered_inj h
    obtain ⟨h, hweight⟩ := numbered_inj h
    rw [String.append_right_inj, String.ofList_inj] at h
    exact ⟨h, hweight, UInt32.toNat_inj.mp hsize, hitalic⟩
  · rintro ⟨hslug, hweight, hsize, hitalic⟩
    unfold familySlug at hslug
    simp only [id, hslug, hweight, hsize, hitalic]

/-- Fonts of one id that differ, in their families and in nothing else. -/
structure Clash (f g : FontRequest) : Prop where
  slug : f.familySlug = g.familySlug
  family : f.family ≠ g.family
  weight : f.weight = g.weight
  size : f.size = g.size
  italic : f.italic = g.italic

theorem clash_iff {f g : FontRequest} : Clash f g ↔ f.id = g.id ∧ f ≠ g := by
  rw [id_eq_iff]
  constructor
  · rintro ⟨hslug, hfamily, hweight, hsize, hitalic⟩
    exact ⟨⟨hslug, hweight, hsize, hitalic⟩, fun h => hfamily (congrArg family h)⟩
  · rintro ⟨⟨hslug, hweight, hsize, hitalic⟩, hne⟩
    refine ⟨hslug, fun hfamily => hne ?_, hweight, hsize, hitalic⟩
    cases f
    cases g
    simp_all

end FontRequest

namespace Fonts

open FontRequest Table

theorem keepsFirst_add : KeepsFirst add FontRequest.id fun f => f := fun _ _ => rfl

/-- After any run of requests the id of a font stands for a font that was asked for, in the same weight, size and style
and with the same slug of the family. All ids stand for the very fonts exactly if no two of the run clash. -/
theorem ids_hold (fonts : List FontRequest) :
    List.Forall₂ (fun f id => ∃ g ∈ fonts, find? (enterAll add fonts []).2 id = some g ∧
        g.familySlug = f.familySlug ∧ g.weight = f.weight ∧ g.size = f.size ∧ g.italic = f.italic)
      fonts (enterAll add fonts []).1 ∧
    (List.Forall₂ (fun f id => find? (enterAll add fonts []).2 id = some f) fonts (enterAll add fonts []).1 ↔
      ∀ f ∈ fonts, ∀ g ∈ fonts, ¬ Clash f g) := by
  refine ⟨keepsFirst_add.forall₂_iff.mpr fun f hf => ?_, ?_⟩
  · obtain ⟨g, hg, hid, hfound⟩ := keepsFirst_add.exists_find? hf
    exact ⟨g, hg, hfound, id_eq_iff.mp hid⟩
  · rw [keepsFirst_add.forall₂_iff, keepsFirst_add.forall_find?_iff]
    simp only [clash_iff, not_and, not_not]

/-- A blank and a hyphen in the name of a family are the same to the id. -/
theorem not_forall_ids_hold : ¬ ∀ asked : List (String × UInt32 × UInt32 × Bool),
    let fonts := asked.map fun (family, weight, size, italic) => FontRequest.make family weight size italic
    List.Forall₂ (fun f id => find? (enterAll add fonts []).2 id = some f) fonts (enterAll add fonts []).1 := by
  intro h
  have hall := keepsFirst_add.forall_find?_iff.mp
    (keepsFirst_add.forall₂_iff.mp (h [("Open Sans", 400, 20, false), ("Open-Sans", 400, 20, false)]))
  have hclash : Clash (.make "Open Sans" 400 20 false) (.make "Open-Sans" 400 20 false) :=
    ⟨by decide, by decide, rfl, rfl, rfl⟩
  obtain ⟨hid, hne⟩ := clash_iff.mp hclash
  exact hne (hall _ List.mem_cons_self _ (List.mem_cons_of_mem _ List.mem_cons_self) hid)

end Fonts

end Dashboard
