import Dashboard.Proofs.Json.Reading
/-!
# Short decimals are read back

Reading rounds twice: the digits are rounded to a number, and so is its quotient by a power of ten. If the
digits and the power are below `2 ^ 53`, the first rounding changes nothing, and what is left is the one
rounding by which the shortest decimal was chosen. So every number of at most fourteen digits that is not
written with an exponent is read back; one of more digits may come back as a neighbour.
-/

namespace Dashboard

open Number

namespace Number.Binary64

/-- The quotient of two whole numbers that are represented exactly is rounded once. -/
theorem div_exact {n t : Nat} (hn : n < twoTo 53) (hnzero : n ≠ 0) (ht : t < twoTo 53) (htzero : t ≠ 0) :
    (ofQuotient false n 1).div (ofQuotient false t 1) = ofQuotient false n t := by
  obtain ⟨a, e, ha, -, hfirst, hnvalue⟩ := exists_exact hn hnzero false
  obtain ⟨b, f, hb, hbzero, hsecond, htvalue⟩ := exists_exact ht htzero false
  rw [hfirst, hsecond, div]
  simp only [hbzero, if_false]
  refine ofQuotient_congr false (Nat.mul_ne_zero (scaled_snd_ne_zero _ _) hbzero) htzero ?_
  have hden : ((scaled a (e - f)).2 : ℚ) ≠ 0 := by exact_mod_cast scaled_snd_ne_zero _ _
  have hvalue := scaled_value a (e - f)
  rw [div_eq_iff hden] at hvalue
  have hsplit : (2 : ℚ) ^ e = 2 ^ (e - f) * 2 ^ f := by
    rw [← zpow_add₀ two_ne_zero, sub_add_cancel]
  have hproduct : ((scaled a (e - f)).1 : ℚ) * t = n * ((scaled a (e - f)).2 * b) := by
    rw [hvalue, ← hnvalue, ← htvalue, hsplit]
    ring
  exact_mod_cast hproduct

theorem negate_ofQuotient (num den : Nat) : (ofQuotient false num den).negate = ofQuotient true num den := by
  have hparts : ∀ (m : Nat) (e : Int), (ofParts false m e).negate = ofParts true m e := by
    intro m e
    unfold ofParts
    split
    · rfl
    · rfl
  unfold ofQuotient
  simp only
  by_cases hnum : num = 0
  · rw [if_pos hnum, if_pos hnum]
    exact hparts 0 minExponent
  · rw [if_neg hnum, if_neg hnum]
    split
    · split
      · exact hparts _ _
      · exact hparts _ _
    · split
      · exact hparts _ _
      · exact hparts _ _

end Number.Binary64

namespace Json

open Number.Binary64 (zeros positional signChars documentChars shortest)

/-! ## Reading digits -/

theorem le_foldl_digits (ds : List Char) (n : Nat) :
    n ≤ ds.foldl (fun n c => 10 * n + digitValue c) n := by
  induction ds generalizing n with
  | nil => exact Nat.le_refl n
  | cons d ds ih =>
    have hstep := ih (10 * n + digitValue d)
    rw [List.foldl_cons]
    omega

theorem absorb_eq {n taken : Nat} {ds : List Char}
    (h : ds.foldl (fun n c => 10 * n + digitValue c) n ≤ largestWhole) :
    absorb n taken ds = (ds.foldl (fun n c => 10 * n + digitValue c) n, taken + ds.length) := by
  induction ds generalizing n taken with
  | nil => rfl
  | cons c ds ih =>
    have hfirst := le_foldl_digits ds (10 * n + digitValue c)
    rw [List.foldl_cons] at h
    rw [absorb, if_neg (by omega), ih h, List.foldl_cons, List.length_cons]
    exact congrArg (Prod.mk _) (by omega)

theorem powerOfTen_eq {k : Nat} (hk : k ≤ 15) : powerOfTen k = .ofQuotient false (tenTo k) 1 := by
  have hone : (⟨1, k⟩ : Decimal).digits ≠ 0 := Nat.one_ne_zero
  have hlow : -400 ≤ (⟨1, k⟩ : Decimal).exponent := by
    change (-400 : Int) ≤ k
    omega
  have hhigh : (⟨1, k⟩ : Decimal).exponent ≤ 400 := by
    change (k : Int) ≤ 400
    omega
  have hpos : (0 : Int) ≤ k := by omega
  rw [powerOfTen, Decimal.toBinary64_of_exponent hone hlow hhigh, if_pos hpos, Nat.one_mul]
  rfl

/-- Digits that are exact are scaled by a power of ten that is exact with one rounding. -/
theorem scaleByTen_exact {n k : Nat} (hn : n < twoTo 53) (hzero : n ≠ 0) (hk : k ≤ 15) (hpos : k ≠ 0) :
    scaleByTen 4 (.ofNat n) (-(k : Int)) = .ok (.ofQuotient false n (tenTo k)) := by
  have hten : tenTo k < twoTo 53 := by
    calc tenTo k ≤ tenTo 15 := Nat.pow_le_pow_right (by decide) hk
      _ < twoTo 53 := by decide
  have htenzero : tenTo k ≠ 0 := (Nat.pow_pos (by decide)).ne'
  have habs : (-(k : Int)).natAbs = k := by omega
  rw [scaleByTen, habs, if_pos (by omega), if_neg (by omega), powerOfTen_eq hk]
  exact congrArg Except.ok (Binary64.div_exact hn hzero hten htenzero)

theorem real_of_exact {negative : Bool} {whole fraction : List Char} {n : Nat}
    (hdigits : digitsValue (whole ++ fraction) = n) (hn : n < twoTo 53) (hzero : n ≠ 0)
    (hplaces : fraction.length ≤ 15) (hpoint : fraction ≠ []) :
    NumberParts.real ⟨negative, whole, some fraction, none⟩ =
      .ok (.real (.ofQuotient negative n (tenTo fraction.length))) := by
  have hlargest : twoTo 53 ≤ largestWhole := by decide
  rw [digitsValue_append] at hdigits
  have hfirst := le_foldl_digits fraction (digitsValue whole)
  have hwhole : absorb 0 0 whole = (digitsValue whole, whole.length) := by
    have hbound : digitsValue whole ≤ largestWhole := by omega
    exact (absorb_eq hbound).trans (congrArg (Prod.mk _) (Nat.zero_add _))
  have hfraction : absorb (digitsValue whole) 0 fraction = (n, fraction.length) := by
    rw [absorb_eq (by omega), hdigits, Nat.zero_add]
  have hlength : fraction.length ≠ 0 := fun h => hpoint (List.length_eq_zero_iff.mp h)
  have hexponent : ((whole.length - whole.length : Nat) : Int) - (fraction.length : Int) + 0 =
      -(fraction.length : Int) := by omega
  simp only [NumberParts.real, hwhole, Option.getD_some, hfraction, hexponent,
    scaleByTen_exact hn hzero hplaces hlength]
  cases negative with
  | false => rfl
  | true => exact congrArg (fun x => Except.ok (Numeral.real x)) (Binary64.negate_ofQuotient _ _)

/-! ## Numerals without an exponent -/

/-- Digits before a point, without a zero that could be left out. -/
def IsLeading (whole : List Char) : Prop := whole = ['0'] ∨ ∃ c cs, whole = c :: cs ∧ c ≠ '0'

theorem scanNumber_point {whole fraction : List Char} (hwhole : ∀ c ∈ whole, c.isDigit = true)
    (hleading : IsLeading whole) (hfraction : ∀ c ∈ fraction, c.isDigit = true) (hpoint : fraction ≠ [])
    (negative : Bool) :
    scanNumber negative (whole ++ '.' :: fraction) =
      .ok (⟨negative, whole, some fraction, none⟩, []) := by
  have htake : (whole ++ '.' :: fraction).takeWhile Char.isDigit = whole := by
    rw [List.takeWhile_append_of_pos hwhole, List.takeWhile_cons_of_neg (by decide), List.append_nil]
  have hdrop : (whole ++ '.' :: fraction).dropWhile Char.isDigit = '.' :: fraction := by
    rw [List.dropWhile_append_of_pos hwhole, List.dropWhile_cons_of_neg (by decide)]
  have hscan : scanFraction ⟨negative, whole, none, none⟩ ('.' :: fraction) =
      .ok (⟨negative, whole, some fraction, none⟩, []) := by
    obtain ⟨d, ds, rfl⟩ := List.exists_cons_of_ne_nil hpoint
    have hd : d.isDigit = true := hfraction d List.mem_cons_self
    rw [scanFraction, if_pos hd, List.takeWhile_eq_self_iff.mpr hfraction,
      List.dropWhile_eq_nil_iff.mpr hfraction]
    rfl
  have hne : whole ++ '.' :: fraction ≠ [] := List.append_ne_nil_of_right_ne_nil _ (List.cons_ne_nil _ _)
  unfold scanNumber
  simp only [htake, hdrop]
  generalize whole ++ '.' :: fraction = cs at hne
  rcases hleading with rfl | ⟨c, ds, rfl, hc⟩
  · cases cs with
    | nil => exact absurd rfl hne
    | cons _ _ => exact hscan
  · cases cs with
    | nil => exact absurd rfl hne
    | cons _ _ =>
      split
      case h_1 hnil => cases hnil
      case h_2 hnil _ => cases hnil
      case h_3 hzero _ => exact absurd (List.cons.inj hzero).1 hc
      case h_4 => exact hscan

/-- A decimal that is written without an exponent, and whose digits and power of ten are exact. -/
structure IsShort (d : Decimal) : Prop where
  low : -5 ≤ d.exponent + (digitsOf d.digits).length - 1
  high : d.exponent + (digitsOf d.digits).length - 1 < 16
  whole : 0 ≤ d.exponent → d.digits * tenTo d.exponent.toNat * 10 < twoTo 53
  fraction : d.exponent < 0 → d.digits < twoTo 53 ∧ -15 ≤ d.exponent

instance (d : Decimal) : Decidable (IsShort d) :=
  decidable_of_iff (-5 ≤ d.exponent + (digitsOf d.digits).length - 1 ∧
      d.exponent + (digitsOf d.digits).length - 1 < 16 ∧
      (0 ≤ d.exponent → d.digits * tenTo d.exponent.toNat * 10 < twoTo 53) ∧
      (d.exponent < 0 → d.digits < twoTo 53 ∧ -15 ≤ d.exponent))
    ⟨fun ⟨low, high, whole, fraction⟩ => ⟨low, high, whole, fraction⟩,
      fun ⟨low, high, whole, fraction⟩ => ⟨low, high, whole, fraction⟩⟩

/-- Digits around a point. They are short, and they stand for a decimal. -/
structure PointSpells (d : Decimal) (whole fraction : List Char) : Prop where
  leading : IsLeading whole
  wholeDigits : ∀ c ∈ whole, c.isDigit = true
  fractionDigits : ∀ c ∈ fraction, c.isDigit = true
  point : fraction ≠ []
  places : fraction.length ≤ 15
  digits : digitsValue (whole ++ fraction) ≠ 0
  exact : digitsValue (whole ++ fraction) < twoTo 53
  value : ∀ negative, Binary64.ofQuotient negative (digitsValue (whole ++ fraction)) (tenTo fraction.length) =
    d.toBinary64 negative

namespace IsShort

variable {d : Decimal}

theorem isLeading_digitsOf {n : Nat} (hn : n ≠ 0) {front rest : List Char} (hfront : front ≠ [])
    (h : digitsOf n = front ++ rest) (back : List Char) : IsLeading (front ++ back) := by
  obtain ⟨c, cs, rfl⟩ := List.exists_cons_of_ne_nil hfront
  refine .inr ⟨c, cs ++ back, rfl, ?_⟩
  rintro rfl
  exact hn (eq_zero_of_digitsOf h)

theorem documentChars_eq (h : IsShort d) : documentChars d =
    if 0 ≤ d.exponent then positional (digitsOf d.digits) d.exponent ++ ['.', '0']
    else positional (digitsOf d.digits) d.exponent := by
  have hrange : (-5 ≤ d.exponent + (digitsOf d.digits).length - 1 &&
      d.exponent + (digitsOf d.digits).length - 1 < 16) = true := by
    rw [Bool.and_eq_true, decide_eq_true_eq, decide_eq_true_eq]
    exact ⟨h.low, h.high⟩
  simp only [documentChars, hrange, if_true]

/-- A whole number has its zeros before the point and one zero after it. -/
theorem exists_of_whole (h : IsShort d) (hdigits : d.digits ≠ 0) (hpos : 0 ≤ d.exponent) :
    ∃ whole fraction, documentChars d = whole ++ '.' :: fraction ∧ PointSpells d whole fraction := by
  have hvalue : digitsValue (digitsOf d.digits ++ zeros d.exponent.toNat ++ ['0']) =
      d.digits * tenTo d.exponent.toNat * 10 := by
    refine (Decimal.digitsValue_zeros (digitsOf d.digits ++ zeros d.exponent.toNat) 1).trans ?_
    rw [Decimal.digitsValue_zeros, digitsValue_digitsOf]
    rfl
  have hexponent : d.exponent ≤ 400 := by
    have hhigh := h.high
    have hlength := List.length_pos_iff.mpr (digitsOf_ne_nil d.digits)
    omega
  have hwhole := h.whole hpos
  have hten : tenTo d.exponent.toNat ≠ 0 := (Nat.pow_pos (by decide)).ne'
  have hzero : d.digits * tenTo d.exponent.toNat * 10 ≠ 0 :=
    Nat.mul_ne_zero (Nat.mul_ne_zero hdigits hten) (by decide)
  refine ⟨digitsOf d.digits ++ zeros d.exponent.toNat, ['0'], ?_, ?_⟩
  · rw [h.documentChars_eq, if_pos hpos, positional, if_pos hpos]
  · constructor
    · exact isLeading_digitsOf hdigits (digitsOf_ne_nil _) (List.append_nil _).symm _
    · intro c hc
      exact (List.mem_append.mp hc).elim isDigit_of_mem_digitsOf Decimal.isDigit_of_mem_zeros
    · exact List.forall_mem_singleton.mpr (by decide)
    · exact List.cons_ne_nil _ _
    · exact Nat.one_le_of_lt (by decide : 1 < 15)
    · rwa [hvalue]
    · rwa [hvalue]
    · intro negative
      have htenths := Decimal.toBinary64_tenths hpos hexponent negative
      have hlow : (-400 : Int) ≤ -1 := by decide
      have hhigh : (-1 : Int) ≤ 400 := by decide
      rw [Decimal.toBinary64_of_exponent (d := ⟨_, -1⟩) hzero hlow hhigh] at htenths
      rw [hvalue, ← htenths]
      rfl

/-- The digits of a fraction spell it with the point in front of as many of them as its power of ten has. -/
theorem pointSpells_of_fraction (h : IsShort d) (hdigits : d.digits ≠ 0) (hneg : d.exponent < 0)
    {whole fraction : List Char} (hleading : IsLeading whole) (hwhole : ∀ c ∈ whole, c.isDigit = true)
    (hfraction : ∀ c ∈ fraction, c.isDigit = true) (hvalue : digitsValue (whole ++ fraction) = d.digits)
    (hcount : fraction.length = (-d.exponent).toNat) : PointSpells d whole fraction := by
  obtain ⟨hexact, hplaces⟩ := h.fraction hneg
  have hnot : ¬ 0 ≤ d.exponent := not_le.mpr hneg
  constructor
  · exact hleading
  · exact hwhole
  · exact hfraction
  · rintro rfl
    rw [List.length_nil] at hcount
    omega
  · omega
  · rwa [hvalue]
  · rwa [hvalue]
  · intro negative
    rw [Decimal.toBinary64_of_exponent hdigits (by omega) (by omega), if_neg hnot, hvalue, hcount]

/-- A fraction has as many digits after the point as its power of ten. -/
theorem exists_of_fraction (h : IsShort d) (hdigits : d.digits ≠ 0) (hneg : d.exponent < 0) :
    ∃ whole fraction, documentChars d = whole ++ '.' :: fraction ∧ PointSpells d whole fraction := by
  have hnot : ¬ 0 ≤ d.exponent := not_le.mpr hneg
  let places := (-d.exponent).toNat
  have hplaces : places ≠ 0 := by omega
  have hdigit : ∀ c ∈ digitsOf d.digits, c.isDigit = true := fun _ => isDigit_of_mem_digitsOf
  rw [h.documentChars_eq, if_neg hnot, positional, if_neg hnot]
  simp only
  split
  · -- The point stands among the digits.
    rename_i hlt
    have htake : (digitsOf d.digits).take ((digitsOf d.digits).length - places) ≠ [] := by
      rw [Ne, List.take_eq_nil_iff]
      rintro (hzero | hnil)
      · omega
      · exact digitsOf_ne_nil _ hnil
    have hleading := isLeading_digitsOf hdigits htake (List.take_append_drop _ _).symm []
    rw [List.append_nil] at hleading
    refine ⟨_, _, rfl, h.pointSpells_of_fraction hdigits hneg hleading
      (fun c hc => hdigit c (List.mem_of_mem_take hc)) (fun c hc => hdigit c (List.mem_of_mem_drop hc)) ?_ ?_⟩
    · rw [List.take_append_drop, digitsValue_digitsOf]
    · rw [List.length_drop]
      omega
  · -- The digits stand behind the point, after as many zeros as it takes.
    rename_i hge
    refine ⟨['0'], zeros (places - (digitsOf d.digits).length) ++ digitsOf d.digits, rfl,
      h.pointSpells_of_fraction hdigits hneg (.inl rfl) (List.forall_mem_singleton.mpr (by decide)) ?_ ?_ ?_⟩
    · intro c hc
      exact (List.mem_append.mp hc).elim Decimal.isDigit_of_mem_zeros (hdigit c)
    · rw [← List.append_assoc]
      exact (Decimal.digitsValue_leadingZeros (_ + 1) _).trans (digitsValue_digitsOf _)
    · rw [List.length_append, zeros, List.length_replicate]
      omega

end IsShort

/-! ## Short numbers -/

theorem isReadBack_of_isSpelled {x : Binary64} (h : IsSpelled (.real x)) : IsReadBack x := by
  have hsource := Source.ofText_spread (.number h)
  have htext : (Json.number (.real x)).spread = x.documentText := String.ofList_toList
  rw [htext] at hsource
  refine ofText_eq_ok.mpr ?_
  rw [hsource]
  exact ⟨rfl, rfl⟩

theorem isSpelled_zero (s : Bool) (h : Representable 0 minExponent) :
    IsSpelled (.real (.finite s 0 minExponent h)) := by
  have htext : (Numeral.real (.finite s 0 minExponent h)).text.toList = signChars s ++ ['0', '.', '0'] := by
    rw [Numeral.text, Binary64.documentText, if_pos rfl, String.toList_ofList]
  cases s with
  | false => exact ⟨⟨false, ['0'], some ['0'], none⟩, '0', ['.', '0'], htext, rfl, .inr ⟨rfl, rfl⟩⟩
  | true => exact ⟨⟨true, ['0'], some ['0'], none⟩, '-', ['0', '.', '0'], htext, rfl, .inl ⟨rfl, rfl⟩⟩

/-- Zero, or a number whose shortest decimal is short. -/
def IsShortReal : Binary64 → Prop
  | .finite s m e h => m ≠ 0 → IsShort (shortest (.finite s m e h) m e)
  | _ => False

instance (x : Binary64) : Decidable (IsShortReal x) := by
  cases x <;> unfold IsShortReal <;> infer_instance

/-- Short numbers are read back. -/
theorem isReadBack_of_isShort {x : Binary64} (hx : IsShortReal x) : IsReadBack x := by
  obtain ⟨s, m, e, h⟩ | _ | _ := x
  case infinite => exact hx.elim
  case nan => exact hx.elim
  refine isReadBack_of_isSpelled ?_
  by_cases hm : m = 0
  · subst hm
    obtain rfl : e = minExponent := h.2.2.2.resolve_left (by decide)
    exact isSpelled_zero s h
  · have hshort := hx hm
    have hvalue := Decimal.toBinary64_shortest h hm s
    generalize hd : shortest (.finite s m e h) m e = d at hshort hvalue
    have hdigits : d.digits ≠ 0 := by
      intro hzero
      rw [Decimal.toBinary64_zero hzero, Binary64.zero, Binary64.ofParts, dif_pos (by decide)] at hvalue
      exact hm (Binary64.finite.inj hvalue).2.1.symm
    obtain ⟨whole, fraction, hchars, hpoint⟩ : ∃ whole fraction,
        documentChars d = whole ++ '.' :: fraction ∧ PointSpells d whole fraction := by
      rcases lt_or_ge d.exponent 0 with hneg | hpos
      · exact hshort.exists_of_fraction hdigits hneg
      · exact hshort.exists_of_whole hdigits hpos
    have htext : (Numeral.real (.finite s m e h)).text.toList = signChars s ++ documentChars d := by
      rw [Numeral.text, Binary64.documentText, if_neg hm, String.toList_ofList, hd]
    have hscan := scanNumber_point hpoint.wholeDigits hpoint.leading hpoint.fractionDigits hpoint.point s
    have hreal : NumberParts.value ⟨s, whole, some fraction, none⟩ = .ok (.real (.finite s m e h)) := by
      have hexact : NumberParts.real ⟨s, whole, some fraction, none⟩ = _ :=
        real_of_exact rfl hpoint.exact hpoint.digits hpoint.places hpoint.point
      rw [hpoint.value s, hvalue] at hexact
      exact hexact
    obtain ⟨c, cs, hcs, hc⟩ := Binary64.exists_documentChars_cons d
    cases s with
    | true =>
      refine ⟨_, '-', documentChars d, htext, hreal, .inl ⟨rfl, ?_⟩⟩
      rw [hchars, hscan]
    | false =>
      refine ⟨_, c, cs, htext.trans hcs, hreal, .inr ⟨hc, ?_⟩⟩
      rw [← hcs, hchars, hscan]

end Json

end Dashboard
