import Dashboard.Proofs.Number.Decimals
/-!
# Sums and halves of whole numbers

Floating point numbers hold every whole number below `2 ^ 53` and the half of each. Sums and differences of such
halves are exact as long as they stay among them, and so is the half of a whole number. The pixel nearest to a half
is therefore found on whole numbers, without a fraction.
-/

namespace Dashboard

open Number

namespace Number.Binary64

/-! ## Values -/

def signed (negative : Bool) (q : ℚ) : ℚ := if negative then -q else q

/-- The value of a finite number. -/
def value? : Binary64 → Option ℚ
  | .finite s m e _ => some (signed s (m * 2 ^ e))
  | _ => none

/-- A number that is half of a whole number. -/
def IsHalf (x : Binary64) (i : Int) : Prop := x.value? = some ((i : ℚ) / 2)

/-- The sign of a whole number. Zero has either sign. -/
def HasSign (i : Int) (negative : Bool) : Prop := i ≠ 0 → negative = decide (i < 0)

theorem hasSign_true {i : Int} : HasSign i true ↔ i ≤ 0 := by
  simp only [HasSign, true_eq_decide_iff]
  omega

theorem hasSign_false {i : Int} : HasSign i false ↔ 0 ≤ i := by
  simp only [HasSign, false_eq_decide_iff]
  omega

theorem signed_eq_iff {negative : Bool} {q : ℚ} (hq : 0 ≤ q) {i : Int} :
    signed negative q = (i : ℚ) / 2 ↔ q = (i.natAbs : ℚ) / 2 ∧ HasSign i negative := by
  rw [Nat.cast_natAbs, Int.cast_abs]
  cases negative with
  | true =>
    rw [hasSign_true, ← Int.cast_nonpos (R := ℚ)]
    change -q = (i : ℚ) / 2 ↔ _
    constructor
    · intro h
      have hi : (i : ℚ) ≤ 0 := by linarith
      rw [abs_of_nonpos hi]
      exact ⟨by linarith, hi⟩
    · rintro ⟨h, hi⟩
      rw [h, abs_of_nonpos hi]
      ring
  | false =>
    rw [hasSign_false, ← Int.cast_nonneg_iff (R := ℚ)]
    change q = (i : ℚ) / 2 ↔ _
    constructor
    · intro h
      have hi : (0 : ℚ) ≤ i := by linarith
      exact ⟨by rw [abs_of_nonneg hi, h], hi⟩
    · rintro ⟨h, hi⟩
      rw [h, abs_of_nonneg hi]

theorem isHalf_finite_iff {s : Bool} {m : Nat} {e : Int} {h : Representable m e} {i : Int} :
    IsHalf (.finite s m e h) i ↔ (m : ℚ) * 2 ^ e = (i.natAbs : ℚ) / 2 ∧ HasSign i s := by
  have hq : (0 : ℚ) ≤ m * 2 ^ e := mul_nonneg m.cast_nonneg (two_zpow_pos e).le
  rw [IsHalf, value?, Option.some_inj, signed_eq_iff hq]

theorem isHalf_ofQuotient {num den : Nat} {i : Int} {negative : Bool} (hden : den ≠ 0) (hsize : i.natAbs < twoTo 53)
    (hvalue : 2 * num = i.natAbs * den) (hsign : HasSign i negative) : IsHalf (ofQuotient negative num den) i := by
  by_cases hzero : i = 0
  · subst hzero
    have hnum : num = 0 := by simpa using hvalue
    have h : Representable 0 minExponent := by decide
    rw [hnum, ofQuotient, if_pos rfl, zero, ofParts, dif_pos h]
    exact isHalf_finite_iff.mpr ⟨by simp, hsign⟩
  · have hnatAbs : i.natAbs ≠ 0 := Int.natAbs_ne_zero.mpr hzero
    obtain ⟨m, e, h, -, hquotient, hhalf⟩ := exists_exact_over hsize hnatAbs (show 1 ≤ 1022 by decide) negative
    have hsame : ofQuotient negative num den = ofQuotient negative i.natAbs (twoTo 1) :=
      ofQuotient_congr negative hden (by decide) (by rw [Nat.mul_comm num]; exact hvalue)
    rw [hsame, hquotient]
    exact isHalf_finite_iff.mpr ⟨hhalf, hsign⟩

/-! ## Sums -/

/-- How many units of `2 ^ unit` a number is, if its last place is not below that unit. -/
def units (negative : Bool) (m : Nat) (e unit : Int) : Int :=
  let n : Int := m * twoTo (e - unit).toNat
  if negative then -n else n

/-- The sum of two numbers, rounded. A sum of zero is negative only if both numbers are. -/
def add : Binary64 → Binary64 → Binary64
  | .finite s m e _, .finite t n f _ =>
    let unit := min e f
    let total := units s m e unit + units t n f unit
    let (num, den) := scaled total.natAbs unit
    ofQuotient (if total = 0 then s && t else total < 0) num den
  | .nan, _ | _, .nan => .nan
  | .infinite s, .infinite t => if s = t then .infinite s else .nan
  | .infinite s, .finite .. | .finite .., .infinite s => .infinite s

def sub (x y : Binary64) : Binary64 := x.add y.negate

theorem units_mul (negative : Bool) (m : Nat) {e unit : Int} (h : unit ≤ e) :
    (units negative m e unit : ℚ) * 2 ^ unit = signed negative (m * 2 ^ e) := by
  obtain ⟨k, hk⟩ := Int.eq_ofNat_of_zero_le (show 0 ≤ e - unit by omega)
  have hsplit : (2 : ℚ) ^ e = 2 ^ k * 2 ^ unit := by
    rw [show e = k + unit by omega, zpow_add₀ two_ne_zero, zpow_natCast]
  have htwo : (twoTo k : ℚ) = 2 ^ k := by simp [twoTo]
  rw [units, signed, hk, Int.toNat_natCast, hsplit]
  cases negative <;> push_cast <;> simp [htwo] <;> ring

/-- A multiple of a unit with the value of a half has the parts of that half. -/
theorem natAbs_mul_eq {total i unit : Int} (h : (total : ℚ) * 2 ^ unit = (i : ℚ) / 2) :
    (total.natAbs : ℚ) * 2 ^ unit = (i.natAbs : ℚ) / 2 := by
  rw [Nat.cast_natAbs, Nat.cast_natAbs, Int.cast_abs, Int.cast_abs]
  calc |(total : ℚ)| * 2 ^ unit = |(total : ℚ) * 2 ^ unit| := by rw [abs_mul, abs_of_pos (two_zpow_pos unit)]
    _ = |(i : ℚ)| / 2 := by rw [h, abs_div, abs_two]

theorem sign_of_mul_eq {total i unit : Int} (h : (total : ℚ) * 2 ^ unit = (i : ℚ) / 2) :
    (total = 0 ↔ i = 0) ∧ (total < 0 ↔ i < 0) := by
  have hunit : (0 : ℚ) < 2 ^ unit := two_zpow_pos unit
  have hvalue : (i : ℚ) = total * (2 * 2 ^ unit) := by linarith
  constructor
  · rw [← Int.cast_eq_zero (α := ℚ), ← Int.cast_eq_zero (α := ℚ) (n := i), hvalue]
    simp [hunit.ne']
  · have hscale : (0 : ℚ) < 2 * 2 ^ unit := by linarith
    have hcast : (total : ℚ) < 0 ↔ (i : ℚ) < 0 := by
      rw [hvalue]
      exact ⟨fun hneg => mul_neg_of_neg_of_pos hneg hscale, fun hneg => neg_of_mul_neg_left hneg hscale.le⟩
    exact_mod_cast hcast

/-- A sum of halves is exact. -/
theorem IsHalf.add {x y : Binary64} {i j : Int} (hx : IsHalf x i) (hy : IsHalf y j)
    (hsize : (i + j).natAbs < twoTo 53) : IsHalf (x.add y) (i + j) := by
  cases x with
  | infinite | nan => exact nomatch hx
  | finite s m e hm =>
    cases y with
    | infinite | nan => exact nomatch hy
    | finite t n f hn =>
      generalize htotal : units s m e (min e f) + units t n f (min e f) = total
      have hvalue : (total : ℚ) * 2 ^ min e f = ((i + j : Int) : ℚ) / 2 := by
        rw [← htotal, Int.cast_add, add_mul, units_mul s m (min_le_left e f), units_mul t n (min_le_right e f),
          Option.some.inj hx, Option.some.inj hy, Int.cast_add, add_div]
      rw [Binary64.add]
      simp only [htotal]
      refine isHalf_ofQuotient (scaled_snd_ne_zero _ _) hsize (two_mul_scaled (natAbs_mul_eq hvalue)) ?_
      obtain ⟨hzero, hneg⟩ := sign_of_mul_eq hvalue
      intro hne
      rw [if_neg (mt hzero.mp hne)]
      exact decide_eq_decide.mpr hneg

theorem IsHalf.negate {x : Binary64} {i : Int} (hx : IsHalf x i) : IsHalf x.negate (-i) := by
  cases x with
  | infinite | nan => exact nomatch hx
  | finite s m e h =>
    have hvalue : signed s (m * 2 ^ e) = (i : ℚ) / 2 := Option.some.inj hx
    rw [IsHalf, Binary64.negate, value?, Int.cast_neg, neg_div, ← hvalue]
    cases s <;> simp [signed]

/-- A difference of halves is exact. -/
theorem IsHalf.sub {x y : Binary64} {i j : Int} (hx : IsHalf x i) (hy : IsHalf y j)
    (hsize : (i - j).natAbs < twoTo 53) : IsHalf (x.sub y) (i - j) := by
  rw [Int.sub_eq_add_neg] at hsize ⊢
  exact hx.add hy.negate hsize

/-! ## Whole numbers and their halves -/

theorem isHalf_ofInt {i : Int} (hsize : (2 * i).natAbs < twoTo 53) : IsHalf (ofInt i) (2 * i) := by
  refine isHalf_ofQuotient Nat.one_ne_zero hsize (by omega) fun _ => ?_
  rw [decide_eq_decide]
  omega

theorem div_finite (s t : Bool) {m n : Nat} {e f : Int} (hm : Representable m e) (hn : Representable n f) (h : n ≠ 0) :
    div (.finite s m e hm) (.finite t n f hn) =
      ofQuotient (s != t) (scaled m (e - f)).1 ((scaled m (e - f)).2 * n) := if_neg h

/-- Half of a whole number is exact. -/
theorem IsHalf.halve {x : Binary64} {i : Int} (hx : IsHalf x (2 * i)) (hsize : i.natAbs < twoTo 53) :
    IsHalf (x.div (ofNat 2)) i := by
  cases x with
  | infinite | nan => exact nomatch hx
  | finite s m e hm =>
    obtain ⟨hvalue, hsign⟩ := isHalf_finite_iff.mp hx
    obtain ⟨n, f, hn, hne, htwo, hdivisor⟩ := exists_exact (n := 2) (by decide) two_ne_zero false
    have hnatAbs : ((2 * i).natAbs : ℚ) / 2 = i.natAbs := by
      rw [Int.natAbs_mul, Nat.cast_mul]
      exact mul_div_cancel_left₀ _ two_ne_zero
    have hquotient : (m : ℚ) * 2 ^ (e - f) = ((i.natAbs * n : Nat) : ℚ) / 2 := by
      calc (m : ℚ) * 2 ^ (e - f) = m * 2 ^ e / 2 ^ f := by rw [zpow_sub₀ two_ne_zero, mul_div_assoc]
        _ = i.natAbs * n / (n * 2 ^ f) := by
          rw [hvalue, hnatAbs, mul_comm (n : ℚ), mul_div_mul_right _ _ (Nat.cast_ne_zero.mpr hne)]
        _ = ((i.natAbs * n : Nat) : ℚ) / 2 := by rw [hdivisor, Nat.cast_two, Nat.cast_mul]
    rw [ofNat, htwo, div_finite _ _ _ _ hne]
    refine isHalf_ofQuotient (Nat.mul_ne_zero (scaled_snd_ne_zero _ _) hne) hsize ?_ ?_
    · rw [two_mul_scaled hquotient, Nat.mul_assoc, Nat.mul_comm n]
    · intro hzero
      rw [Bool.bne_false, hsign (by omega), decide_eq_decide]
      omega

/-- The whole number nearest to a half. -/
theorem IsHalf.round? {x : Binary64} {i : Int} (hx : IsHalf x i) : x.round? = some (Pixel.half i) := by
  cases x with
  | infinite | nan => exact nomatch hx
  | finite s m e h =>
    obtain ⟨hvalue, hsign⟩ := isHalf_finite_iff.mp hx
    rw [Binary64.round?, nearestNat_half hvalue, Pixel.half]
    refine congrArg some ?_
    cases s with
    | true =>
      have hi := hasSign_true.mp hsign
      rw [if_pos rfl]
      split_ifs <;> omega
    | false =>
      have hi := hasSign_false.mp hsign
      rw [if_neg Bool.false_ne_true, if_neg (by omega)]
      omega

end Number.Binary64

namespace Pixel

open Binary64

variable {x : Binary64} {i : Int}

theorem clamp_toInt (p : Pixel) : clamp p.toInt = p := Int32.ofIntClamp_toInt p

theorem half_two_mul (i : Int) : half (2 * i) = i := by
  have h := two_mul_half (2 * i)
  rw [if_pos (by omega)] at h
  omega

/-- The pixel nearest to a half. -/
theorem ofBinary64_of_isHalf (h : IsHalf x i) : ofBinary64 x = clamp (half i) := by
  cases x with
  | infinite | nan => exact nomatch h
  | finite s m e hm => exact congrArg (fun r => clamp (r.getD 0)) h.round?

theorem isHalf_toBinary64 (p : Pixel) : IsHalf p.toBinary64 (2 * p.toInt) := by
  have hlow := p.le_toInt
  have hhigh := p.toInt_lt
  have hpow : twoTo 53 = 9007199254740992 := by decide
  exact isHalf_ofInt (by omega)

/-- The pixel nearest to the sum of a pixel and a half. -/
theorem ofBinary64_add (p : Pixel) (hx : IsHalf x i) (hsize : i.natAbs ≤ twoTo 52) :
    ofBinary64 (p.toBinary64.add x) = clamp (half (2 * p.toInt + i)) := by
  have hlow := p.le_toInt
  have hhigh := p.toInt_lt
  have hpow : twoTo 52 = 4503599627370496 := by decide
  have hpow' : twoTo 53 = 9007199254740992 := by decide
  exact ofBinary64_of_isHalf ((isHalf_toBinary64 p).add hx (by omega))

theorem ofBinary64_toBinary64 (p : Pixel) : ofBinary64 p.toBinary64 = p := by
  rw [ofBinary64_of_isHalf (isHalf_toBinary64 p), half_two_mul, clamp_toInt]

end Pixel

end Dashboard
