import Dashboard.Geometry.Pixel
import Dashboard.Proofs.Number.Numerals
import Dashboard.Proofs.Number.Rounding
import Mathlib.Data.List.TakeWhile
/-!
# Written decimals are read back

A decimal in the document layout is read as itself, or, where zeros stand for a positive exponent, as
a decimal of the same value. The shortest decimal of a number reads back by its choice, and the exact
one behind it does so because rounding keeps what is representable.
-/

namespace Dashboard

namespace Number

namespace Decimal

open Binary64

variable {whole fraction : List Char}

theorem read?_whole (hw : ∀ c ∈ whole, c.isDigit = true) (hne : whole ≠ []) :
    read? whole = some ⟨digitsValue whole, 0⟩ := by
  have htake : whole.takeWhile Char.isDigit = whole := List.takeWhile_eq_self_iff.mpr hw
  have hdrop : whole.dropWhile Char.isDigit = [] := List.dropWhile_eq_nil_iff.mpr hw
  simp [read?, htake, hdrop, hne]

theorem read?_point (hw : ∀ c ∈ whole, c.isDigit = true) (hne : whole ≠ [])
    (hf : ∀ c ∈ fraction, c.isDigit = true) :
    read? (whole ++ '.' :: fraction) =
      some ⟨digitsValue (whole ++ fraction), -(fraction.length : Int)⟩ := by
  have htake : (whole ++ '.' :: fraction).takeWhile Char.isDigit = whole := by
    rw [List.takeWhile_append_of_pos hw, List.takeWhile_cons_of_neg (by decide), List.append_nil]
  have hdrop : (whole ++ '.' :: fraction).dropWhile Char.isDigit = '.' :: fraction := by
    rw [List.dropWhile_append_of_pos hw, List.dropWhile_cons_of_neg (by decide)]
  have hdigits : fraction.takeWhile Char.isDigit = fraction := List.takeWhile_eq_self_iff.mpr hf
  have hend : fraction.dropWhile Char.isDigit = [] := List.dropWhile_eq_nil_iff.mpr hf
  simp [read?, htake, hdrop, hdigits, hend, hne]

theorem read?_exponent (hw : ∀ c ∈ whole, c.isDigit = true) (hne : whole ≠ []) (cs : List Char) :
    read? (whole ++ 'e' :: cs) = (exponentOf? cs).map fun e => ⟨digitsValue whole, e⟩ := by
  have htake : (whole ++ 'e' :: cs).takeWhile Char.isDigit = whole := by
    rw [List.takeWhile_append_of_pos hw, List.takeWhile_cons_of_neg (by decide), List.append_nil]
  have hdrop : (whole ++ 'e' :: cs).dropWhile Char.isDigit = 'e' :: cs := by
    rw [List.dropWhile_append_of_pos hw, List.dropWhile_cons_of_neg (by decide)]
  simp [read?, htake, hdrop, hne]

theorem read?_point_exponent (hw : ∀ c ∈ whole, c.isDigit = true) (hne : whole ≠ [])
    (hf : ∀ c ∈ fraction, c.isDigit = true) (cs : List Char) :
    read? (whole ++ '.' :: (fraction ++ 'e' :: cs)) = (exponentOf? cs).map fun e =>
      ⟨digitsValue (whole ++ fraction), e - fraction.length⟩ := by
  have htake : (whole ++ '.' :: (fraction ++ 'e' :: cs)).takeWhile Char.isDigit = whole := by
    rw [List.takeWhile_append_of_pos hw, List.takeWhile_cons_of_neg (by decide), List.append_nil]
  have hdrop : (whole ++ '.' :: (fraction ++ 'e' :: cs)).dropWhile Char.isDigit =
      '.' :: (fraction ++ 'e' :: cs) := by
    rw [List.dropWhile_append_of_pos hw, List.dropWhile_cons_of_neg (by decide)]
  have hdigits : (fraction ++ 'e' :: cs).takeWhile Char.isDigit = fraction := by
    rw [List.takeWhile_append_of_pos hf, List.takeWhile_cons_of_neg (by decide), List.append_nil]
  have hend : (fraction ++ 'e' :: cs).dropWhile Char.isDigit = 'e' :: cs := by
    rw [List.dropWhile_append_of_pos hf, List.dropWhile_cons_of_neg (by decide)]
  simp [read?, htake, hdrop, hdigits, hend, hne]

theorem exponentOf?_signed (e : Int) :
    exponentOf? ((if e < 0 then '-' else '+') :: digitsOf e.natAbs) = some e := by
  split
  · have habs : -(e.natAbs : Int) = e := by omega
    simpa [exponentOf?, natOfDigits?_digitsOf] using habs
  · have habs : (e.natAbs : Int) = e := by omega
    simpa [exponentOf?, natOfDigits?_digitsOf] using habs

/-! ## The document layout -/

theorem isDigit_of_mem_zeros {n : Nat} {c : Char} (h : c ∈ zeros n) : c.isDigit = true :=
  List.eq_of_mem_replicate h ▸ rfl

theorem digitsValue_zeros (cs : List Char) (n : Nat) :
    digitsValue (cs ++ zeros n) = digitsValue cs * tenTo n := by
  induction n with
  | zero => simp [zeros, tenTo]
  | succ n ih =>
    have hzeros : zeros (n + 1) = zeros n ++ ['0'] := List.replicate_succ'
    have hzero : digitValue '0' = 0 := by decide
    rw [hzeros, ← List.append_assoc, digitsValue_append, ih]
    change 10 * (digitsValue cs * tenTo n) + digitValue '0' = digitsValue cs * 10 ^ (n + 1)
    rw [hzero, Nat.add_zero, Nat.pow_succ]
    change 10 * (digitsValue cs * 10 ^ n) = _
    ring

theorem digitsValue_leadingZeros (n : Nat) (cs : List Char) :
    digitsValue (zeros n ++ cs) = digitsValue cs := by
  have hzeros : digitsValue (zeros n) = 0 := by
    have h := digitsValue_zeros [] n
    rwa [List.nil_append, show digitsValue [] = 0 from rfl, Nat.zero_mul] at h
  rw [digitsValue_append, hzeros]
  rfl

theorem read?_positional {d : Decimal} (h : d.exponent < 0) :
    read? (positional (digitsOf d.digits) d.exponent) = some d := by
  obtain ⟨n, e⟩ := d
  have hdigit : ∀ c ∈ digitsOf n, c.isDigit = true := fun _ => isDigit_of_mem_digitsOf
  have hneg : ¬ 0 ≤ e := not_le.mpr h
  have hplaces : -((-e).toNat : Int) = e := by
    change e < 0 at h
    omega
  simp only [positional, hneg, if_false]
  split
  · rename_i hlt
    have hne : (digitsOf n).take ((digitsOf n).length - (-e).toNat) ≠ [] := by
      rw [Ne, List.take_eq_nil_iff]
      have := digitsOf_ne_nil n
      rintro (h | h)
      · omega
      · exact this h
    have hlength : ((digitsOf n).drop ((digitsOf n).length - (-e).toNat)).length = (-e).toNat := by
      rw [List.length_drop]
      omega
    rw [read?_point (fun c hc => hdigit c (List.mem_of_mem_take hc)) hne
      fun c hc => hdigit c (List.mem_of_mem_drop hc), List.take_append_drop, digitsValue_digitsOf,
      hlength, hplaces]
  · rename_i hge
    have hfraction : ∀ c ∈ zeros ((-e).toNat - (digitsOf n).length) ++ digitsOf n,
        c.isDigit = true := by
      intro c hc
      exact (List.mem_append.mp hc).elim isDigit_of_mem_zeros (hdigit c)
    have hlength : (zeros ((-e).toNat - (digitsOf n).length) ++ digitsOf n).length = (-e).toNat := by
      rw [List.length_append, zeros, List.length_replicate]
      omega
    have hzero : ∀ c ∈ ['0'], c.isDigit = true := List.forall_mem_singleton.mpr (by decide)
    have hread := read?_point hzero (List.cons_ne_nil _ _) hfraction
    rw [hlength, hplaces] at hread
    have hvalue : digitsValue (['0'] ++ (zeros ((-e).toNat - (digitsOf n).length) ++ digitsOf n)) = n := by
      rw [← List.append_assoc]
      exact (digitsValue_leadingZeros (_ + 1) (digitsOf n)).trans (digitsValue_digitsOf n)
    rw [hvalue] at hread
    exact hread

theorem read?_positional_zeros {d : Decimal} (h : 0 ≤ d.exponent) :
    read? (positional (digitsOf d.digits) d.exponent ++ ['.', '0']) =
      some ⟨d.digits * tenTo d.exponent.toNat * 10, -1⟩ := by
  have hdigit : ∀ c ∈ digitsOf d.digits ++ zeros d.exponent.toNat, c.isDigit = true := by
    intro c hc
    exact (List.mem_append.mp hc).elim isDigit_of_mem_digitsOf isDigit_of_mem_zeros
  have hne : digitsOf d.digits ++ zeros d.exponent.toNat ≠ [] :=
    List.append_ne_nil_of_left_ne_nil (digitsOf_ne_nil _) _
  rw [positional, if_pos h, read?_point hdigit hne (List.forall_mem_singleton.mpr (by decide))]
  have hvalue : digitsValue (digitsOf d.digits ++ zeros d.exponent.toNat ++ ['0']) =
      d.digits * tenTo d.exponent.toNat * 10 := by
    refine (digitsValue_zeros (digitsOf d.digits ++ zeros d.exponent.toNat) 1).trans ?_
    rw [digitsValue_zeros, digitsValue_digitsOf]
    rfl
  rw [hvalue]
  rfl

theorem read?_scientific (d : Decimal) :
    read? (scientific (digitsOf d.digits) (d.exponent + (digitsOf d.digits).length - 1)) = some d := by
  obtain ⟨n, e⟩ := d
  have hvalue := digitsValue_digitsOf n
  obtain ⟨c, cs, hcs, hc⟩ := exists_digitsOf_cons n
  have hdigit : ∀ x ∈ c :: cs, x.isDigit = true := fun x hx => isDigit_of_mem_digitsOf (hcs ▸ hx)
  have hfirst : ∀ x ∈ [c], x.isDigit = true := by simpa using hc
  rw [hcs] at hvalue
  simp only [scientific, hcs]
  cases cs with
  | nil =>
    rw [read?_exponent hfirst (List.cons_ne_nil _ _), exponentOf?_signed, Option.map_some, hvalue]
    exact congrArg (fun e => some (⟨n, e⟩ : Decimal)) (by simp)
  | cons c' cs =>
    have hrest : ∀ x ∈ c' :: cs, x.isDigit = true := fun x hx =>
      hdigit x (List.mem_cons_of_mem c hx)
    refine (read?_point_exponent hfirst (List.cons_ne_nil _ _) hrest _).trans ?_
    rw [exponentOf?_signed, Option.map_some, List.singleton_append, hvalue]
    refine congrArg (fun e => some (⟨n, e⟩ : Decimal)) ?_
    simp only [List.length_cons]
    push_cast
    ring

theorem toBinary64_of_exponent {d : Decimal} (hdigits : d.digits ≠ 0) (hlow : -400 ≤ d.exponent)
    (hhigh : d.exponent ≤ 400) (negative : Bool) :
    d.toBinary64 negative = if 0 ≤ d.exponent then
        .ofQuotient negative (d.digits * tenTo d.exponent.toNat) 1
      else .ofQuotient negative d.digits (tenTo (-d.exponent).toNat) := by
  unfold toBinary64
  rw [if_neg hdigits, if_neg (by omega), if_neg (by omega)]

theorem toBinary64_zero {d : Decimal} (h : d.digits = 0) (negative : Bool) :
    d.toBinary64 negative = .zero negative := by
  unfold toBinary64
  rw [if_pos h]

/-- Zeros after the digits, and one after the point, do not change the value. -/
theorem toBinary64_tenths {d : Decimal} (h : 0 ≤ d.exponent) (hhigh : d.exponent ≤ 400)
    (negative : Bool) :
    toBinary64 negative ⟨d.digits * tenTo d.exponent.toNat * 10, -1⟩ = d.toBinary64 negative := by
  have hten : 0 < tenTo d.exponent.toNat := Nat.pow_pos (by decide)
  by_cases hdigits : d.digits = 0
  · rw [toBinary64_zero hdigits, toBinary64_zero]
    change d.digits * tenTo d.exponent.toNat * 10 = 0
    rw [hdigits, Nat.zero_mul]
  · have hshifted : d.digits * tenTo d.exponent.toNat * 10 ≠ 0 := by positivity
    rw [toBinary64_of_exponent hdigits (by omega) hhigh, if_pos h]
    refine (toBinary64_of_exponent hshifted ?_ ?_ negative).trans ?_
    · change (-400 : Int) ≤ -1
      decide
    · change (-1 : Int) ≤ 400
      decide
    · exact ofQuotient_mul negative (d.digits * tenTo d.exponent.toNat) Nat.one_ne_zero
        (by decide : 0 < 10)

theorem read?_documentChars (d : Decimal) :
    ∃ d', read? (documentChars d) = some d' ∧
      ∀ negative, d'.toBinary64 negative = d.toBinary64 negative := by
  have hlength : 0 < (digitsOf d.digits).length := List.length_pos_iff.mpr (digitsOf_ne_nil _)
  simp only [documentChars, Bool.and_eq_true, decide_eq_true_eq]
  split
  · rename_i hleading
    split
    · rename_i hpos
      exact ⟨_, read?_positional_zeros hpos, toBinary64_tenths hpos (by omega)⟩
    · rename_i hneg
      exact ⟨d, read?_positional (by omega), fun _ => rfl⟩
  · exact ⟨d, read?_scientific d, fun _ => rfl⟩

/-! ## The shortest decimal -/

theorem two_mul_le_log2 {m : Nat} (hm : m ≠ 0) (k : Nat) : 2 * k ≤ (m * 5 ^ k).log2 := by
  have hpow : 2 ^ (2 * k) ≤ m * 5 ^ k := by
    calc 2 ^ (2 * k) = 4 ^ k := by rw [Nat.pow_mul]
      _ ≤ 5 ^ k := Nat.pow_le_pow_left (by decide) k
      _ ≤ m * 5 ^ k := Nat.le_mul_of_pos_left _ (Nat.pos_of_ne_zero hm)
  have hne : m * 5 ^ k ≠ 0 := by positivity
  exact (Nat.le_log2 hne).mpr hpow

theorem toBinary64_exactDecimal {m : Nat} {e : Int} (h : Representable m e) (hm : m ≠ 0)
    (negative : Bool) : (exactDecimal m e).toBinary64 negative = .finite negative m e h := by
  rw [← ofQuotient_scaled h hm negative]
  unfold exactDecimal scaled
  split
  · have hdigits : m * twoTo e.toNat ≠ 0 := Nat.mul_ne_zero hm (Nat.pow_pos (by decide)).ne'
    have hone : ∀ n, n * tenTo (0 : Int).toNat = n := Nat.mul_one
    rw [toBinary64_of_exponent hdigits (by simp) (by simp)]
    simp only [le_refl, if_true, hone]
  · rename_i hneg
    obtain ⟨k, hk⟩ := Int.eq_ofNat_of_zero_le (show 0 ≤ -e by omega)
    have hexponent : k ≤ 1074 := by
      have hmin := h.2.1
      unfold minExponent at hmin
      omega
    have hdigits : m * 5 ^ k ≠ 0 := by positivity
    have hlog := two_mul_le_log2 hm k
    have hten : tenTo k = twoTo k * 5 ^ k := Nat.mul_pow 2 5 k
    rw [hk, Int.toNat_natCast]
    change toBinary64 negative ⟨m * 5 ^ k, e⟩ = ofQuotient negative m (twoTo k)
    unfold toBinary64
    simp only [hdigits, if_false]
    rw [if_neg (by omega), if_neg (by omega), if_neg hneg, hk, Int.toNat_natCast, hten]
    exact ofQuotient_mul negative m (Nat.pow_pos (by decide)).ne' (by positivity)

theorem toBinary64_shortest {m : Nat} {e : Int} (h : Representable m e) (hm : m ≠ 0)
    (negative : Bool) :
    (shortest (.finite negative m e h) m e).toBinary64 negative = .finite negative m e h := by
  have hnearer : ∀ {low high d : Decimal} {near : Bool},
      nearerOf low high near (readsBack (.finite negative m e h) low)
        (readsBack (.finite negative m e h) high) = some d →
      d.toBinary64 negative = .finite negative m e h := by
    intro low high d near hd
    unfold nearerOf at hd
    split at hd
    · rename_i hlow
      cases hd
      simp only [Bool.and_eq_true] at hlow
      exact beq_iff_eq.mp hlow.1
    · split at hd
      · rename_i hhigh
        cases hd
        exact beq_iff_eq.mp hhigh
      · cases hd
  unfold shortest
  simp only
  cases hfound : (List.range 17).findSome? fun n => gridDecimal? (.finite negative m e h)
      (scaled m e).1 (scaled m e).2 (decimalPlace (scaled m e).1 (scaled m e).2 4
        (placeStart (scaled m e).1 (scaled m e).2)) (n + 1) with
  | none => exact toBinary64_exactDecimal h hm negative
  | some d =>
    obtain ⟨n, -, hn⟩ := List.exists_of_findSome?_eq_some hfound
    exact hnearer hn

end Decimal

namespace Binary64

open Decimal

theorem read?_signChars {c : Char} (hc : c.isDigit = true) (negative : Bool) (cs : List Char) :
    read? (signChars negative ++ c :: cs) = readUnsigned? negative (c :: cs) := by
  cases negative with
  | true => rfl
  | false =>
    have hplus : c ≠ '+' := fun he => absurd hc (by rw [he]; decide)
    have hminus : c ≠ '-' := fun he => absurd hc (by rw [he]; decide)
    rw [signChars, if_neg Bool.false_ne_true, List.nil_append, read?]
    · exact fun ds he => hplus (List.cons.inj he).1
    · exact fun ds he => hminus (List.cons.inj he).1

theorem exists_documentChars_cons (d : Decimal) :
    ∃ c cs, documentChars d = c :: cs ∧ c.isDigit = true := by
  obtain ⟨c, ds, hds, hc⟩ := exists_digitsOf_cons d.digits
  have hpositional : ∃ c cs, positional (digitsOf d.digits) d.exponent = c :: cs ∧
      c.isDigit = true := by
    unfold positional
    split
    · exact ⟨c, _, by rw [hds, List.cons_append], hc⟩
    · simp only
      split
      · rename_i hlt
        obtain ⟨n, hn⟩ : ∃ n, (digitsOf d.digits).length - (-d.exponent).toNat = n + 1 :=
          ⟨_, (Nat.succ_pred_eq_of_pos (by omega)).symm⟩
        exact ⟨c, _, by rw [hn, hds, List.take_succ_cons, List.cons_append], hc⟩
      · exact ⟨'0', _, rfl, by decide⟩
  simp only [documentChars]
  split
  · split
    · obtain ⟨c, cs, hcs, hc⟩ := hpositional
      exact ⟨c, _, by rw [hcs, List.cons_append], hc⟩
    · exact hpositional
  · unfold scientific
    rw [hds]
    cases ds with
    | nil => exact ⟨c, _, rfl, hc⟩
    | cons c' ds => exact ⟨c, _, rfl, hc⟩

/-- A finite number in the document layout is read as itself. -/
theorem read?_documentText {x : Binary64} (hx : x.isFinite = true) :
    read? x.documentText.toList = some x := by
  cases x with
  | infinite s => exact absurd hx Bool.false_ne_true
  | nan => exact absurd hx Bool.false_ne_true
  | finite s m e h =>
    by_cases hm : m = 0
    · subst hm
      -- Zero has one exponent.
      obtain rfl : e = minExponent := h.2.2.2.resolve_left (by decide)
      have hzero : zero s = .finite s 0 minExponent h := by rw [zero, ofParts, dif_pos h]
      have hread : Decimal.read? ['0', '.', '0'] = some ⟨0, -1⟩ := by decide
      simp only [documentText, if_true, String.toList_ofList]
      rw [read?_signChars (by decide), readUnsigned?, hread]
      exact congrArg some ((toBinary64_zero rfl s).trans hzero)
    · obtain ⟨d, hd, hvalue⟩ := read?_documentChars (shortest (.finite s m e h) m e)
      obtain ⟨c, cs, hcs, hc⟩ := exists_documentChars_cons (shortest (.finite s m e h) m e)
      simp only [documentText, hm, if_false, String.toList_ofList]
      rw [hcs, read?_signChars hc, readUnsigned?, ← hcs, hd]
      exact congrArg some ((hvalue s).trans (toBinary64_shortest h hm s))

/-! ## Whole numbers and their fractions -/

/-- A whole number below `2 ^ 53` over a power of two is a floating point number. -/
theorem exists_exact_over {n : Nat} (hn : n < twoTo 53) (hzero : n ≠ 0) {k : Nat} (hk : k ≤ 1022) (negative : Bool) :
    ∃ m e h, m ≠ 0 ∧ ofQuotient negative n (twoTo k) = .finite negative m e h ∧
      (m : ℚ) * 2 ^ e = (n : ℚ) / twoTo k := by
  obtain ⟨j, hj⟩ : ∃ j, n.log2 + j = 52 := by
    have hlog : n.log2 < 53 := (Nat.log2_lt hzero).mpr hn
    exact ⟨52 - n.log2, by omega⟩
  have hpow : 0 < twoTo j := Nat.pow_pos (by decide)
  have hlow : twoTo 52 ≤ n * twoTo j := by
    calc twoTo 52 = 2 ^ n.log2 * 2 ^ j := by rw [← Nat.pow_add, hj]; rfl
      _ ≤ n * 2 ^ j := Nat.mul_le_mul_right _ (Nat.log2_self_le hzero)
  have hhigh : n * twoTo j < twoTo 53 := by
    calc n * 2 ^ j < 2 ^ (n.log2 + 1) * 2 ^ j := Nat.mul_lt_mul_of_pos_right Nat.lt_log2_self hpow
      _ = twoTo 53 := by rw [← Nat.pow_add, show n.log2 + 1 + j = 53 by omega]; rfl
  have hrepresentable : Representable (n * twoTo j) (-((j + k : Nat) : Int)) := by
    refine ⟨hhigh, ?_, ?_, .inl hlow⟩
    · unfold minExponent
      omega
    · unfold maxExponent
      omega
  have hproduct : n * twoTo j ≠ 0 := Nat.mul_ne_zero hzero hpow.ne'
  have hover : (twoTo k : ℚ) ≠ 0 := by exact_mod_cast (Nat.pow_pos (by decide) : 0 < twoTo k).ne'
  have hvalue : ((n * twoTo j : Nat) : ℚ) * 2 ^ (-((j + k : Nat) : Int)) = (n : ℚ) / twoTo k := by
    have htwo : (twoTo j : ℚ) ≠ 0 := by exact_mod_cast hpow.ne'
    have hsplit : (2 : ℚ) ^ (j + k) = twoTo j * twoTo k := by
      rw [pow_add]
      simp [twoTo]
    rw [zpow_neg, zpow_natCast, hsplit, Nat.cast_mul]
    field_simp
  refine ⟨n * twoTo j, -((j + k : Nat) : Int), hrepresentable, hproduct, ?_, hvalue⟩
  rw [← ofQuotient_scaled hrepresentable hproduct negative]
  refine ofQuotient_congr negative (Nat.pow_pos (by decide) : 0 < twoTo k).ne' (scaled_snd_ne_zero _ _) ?_
  have hden : ((scaled (n * twoTo j) (-((j + k : Nat) : Int))).2 : ℚ) ≠ 0 := by
    exact_mod_cast scaled_snd_ne_zero _ _
  have hscaled := scaled_value (n * twoTo j) (-((j + k : Nat) : Int))
  rw [hvalue, div_eq_div_iff hden hover] at hscaled
  exact_mod_cast hscaled.symm

/-- A whole number below `2 ^ 53` is a floating point number. -/
theorem exists_exact {n : Nat} (hn : n < twoTo 53) (hzero : n ≠ 0) (negative : Bool) :
    ∃ m e h, m ≠ 0 ∧ ofQuotient negative n 1 = .finite negative m e h ∧ (m : ℚ) * 2 ^ e = n := by
  obtain ⟨m, e, h, hm, hquotient, hvalue⟩ := exists_exact_over hn hzero (Nat.zero_le _) negative
  refine ⟨m, e, h, hm, hquotient, ?_⟩
  rw [hvalue, show twoTo 0 = 1 from rfl, Nat.cast_one, div_one]

/-- The numerator and denominator of a half. -/
theorem two_mul_scaled {m n : Nat} {e : Int} (h : (m : ℚ) * 2 ^ e = (n : ℚ) / 2) :
    2 * (scaled m e).1 = n * (scaled m e).2 := by
  have hden : ((scaled m e).2 : ℚ) ≠ 0 := by exact_mod_cast scaled_snd_ne_zero m e
  have hvalue := scaled_value m e
  rw [h, div_eq_div_iff hden two_ne_zero] at hvalue
  rw [Nat.mul_comm 2]
  exact_mod_cast hvalue

/-- The whole number nearest to a half, the greater of two. -/
theorem nearestNat_half {m n : Nat} {e : Int} (h : (m : ℚ) * 2 ^ e = (n : ℚ) / 2) : nearestNat m e = (n + 1) / 2 := by
  have hden : 0 < (scaled m e).2 := Nat.pos_of_ne_zero (scaled_snd_ne_zero m e)
  have hsum : n * (scaled m e).2 + (scaled m e).2 = (n + 1) * (scaled m e).2 := by ring
  unfold nearestNat
  simp only [two_mul_scaled h]
  rw [hsum, Nat.mul_div_mul_right _ _ hden]

theorem nearestNat_eq {m n : Nat} {e : Int} (h : (m : ℚ) * 2 ^ e = n) : nearestNat m e = n := by
  have hhalf : (m : ℚ) * 2 ^ e = ((2 * n : Nat) : ℚ) / 2 := by
    rw [h, Nat.cast_mul, Nat.cast_two, mul_div_cancel_left₀ _ two_ne_zero]
  rw [nearestNat_half hhalf]
  omega
theorem exists_ofQuotient_one {n : Nat} (hn : n < twoTo 53) (negative : Bool) :
    ∃ m e h, ofQuotient negative n 1 = .finite negative m e h ∧ nearestNat m e = n := by
  by_cases hzero : n = 0
  · subst hzero
    have h : Representable 0 minExponent := by decide
    have hvalue : ((0 : Nat) : ℚ) * 2 ^ minExponent = (0 : Nat) := by rw [Nat.cast_zero, zero_mul]
    exact ⟨0, minExponent, h, by rw [ofQuotient, if_pos rfl, zero, ofParts, dif_pos h], nearestNat_eq hvalue⟩
  · obtain ⟨m, e, h, -, hquotient, hvalue⟩ := exists_exact hn hzero negative
    exact ⟨m, e, h, hquotient, nearestNat_eq hvalue⟩

theorem read?_digitsOf {n : Nat} (hn : n < twoTo 53) (negative : Bool) :
    ∃ m e h, read? (signChars negative ++ digitsOf n) = some (.finite negative m e h) ∧
      nearestNat m e = n := by
  obtain ⟨m, e, h, hquotient, hnearest⟩ := exists_ofQuotient_one hn negative
  refine ⟨m, e, h, ?_, hnearest⟩
  obtain ⟨c, cs, hcs, hc⟩ := exists_digitsOf_cons n
  have hread := Decimal.read?_whole (fun _ => isDigit_of_mem_digitsOf) (digitsOf_ne_nil n)
  rw [digitsValue_digitsOf] at hread
  rw [hcs, read?_signChars hc, readUnsigned?, ← hcs, hread, ← hquotient]
  refine congrArg some ?_
  by_cases hzero : n = 0
  · subst hzero
    exact toBinary64_zero rfl negative
  · have hone : n * tenTo (0 : Int).toNat = n := Nat.mul_one n
    rw [toBinary64_of_exponent hzero (by simp) (by simp)]
    simp only [le_refl, if_true, hone]

end Binary64

end Number

namespace Pixel

open Number

/-- A written coordinate is read as a number with that coordinate as its nearest pixel. -/
theorem exists_read?_intText (p : Pixel) :
    ∃ x, Binary64.read? (intText p.toInt).toList = some x ∧ ofBinary64 x = p := by
  have hlow := p.le_toInt
  have hhigh := p.toInt_lt
  have hsize : p.toInt.natAbs < twoTo 53 := by
    have hpow : twoTo 53 = 9007199254740992 := by decide
    omega
  obtain ⟨m, e, h, hread, hnearest⟩ := Binary64.read?_digitsOf hsize (decide (p.toInt < 0))
  refine ⟨.finite (decide (p.toInt < 0)) m e h, ?_, ?_⟩
  · rw [← hread]
    unfold intText
    split
    · rename_i hneg
      rw [String.toList_ofList, decide_eq_true hneg]
      rfl
    · rename_i hpos
      rw [String.toList_ofList, decide_eq_false hpos]
      rfl
  · have hround : (if decide (p.toInt < 0) then -(p.toInt.natAbs : Int) else p.toInt.natAbs) =
        p.toInt := by
      split
      · rename_i hneg
        have := of_decide_eq_true hneg
        omega
      · rename_i hpos
        have := of_decide_eq_false (Bool.not_eq_true _ ▸ hpos)
        omega
    simp only [ofBinary64, Binary64.round?, hnearest, Option.getD_some, hround, clamp,
      Int32.ofIntClamp_toInt]

end Pixel

end Dashboard
