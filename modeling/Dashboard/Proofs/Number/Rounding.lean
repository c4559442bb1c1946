import Dashboard.Number.Binary64
import Mathlib.Data.Int.Log
import Mathlib.Data.Rat.Floor
import Mathlib.Tactic.Positivity
import Mathlib.Tactic.Ring
/-!
# Rounding of quotients

The place of a quotient is given by its binary logarithm, so that rounding depends on the value of
the quotient alone: a factor of both numbers cancels. A number that is representable is rounded to
itself.
-/

namespace Dashboard.Number.Binary64

theorem two_zpow_pos (k : ℤ) : (0 : ℚ) < 2 ^ k := zpow_pos two_pos k

theorem log_eq {q : ℚ} (hq : 0 < q) {k : ℤ} (hlow : (2 : ℚ) ^ k ≤ q) (hhigh : q < (2 : ℚ) ^ (k + 1)) :
    Int.log 2 q = k := by
  have hle : k ≤ Int.log 2 q := (Int.zpow_le_iff_le_log (by decide) hq).mp (by exact_mod_cast hlow)
  have hlt : Int.log 2 q < k + 1 := (Int.lt_zpow_iff_log_lt (by decide) hq).mp (by exact_mod_cast hhigh)
  omega

/-- Whether a quotient reaches a power of two, said without fractions. -/
theorem fits_iff {num den : Nat} (hd : 0 < den) (e : ℤ) :
    (if 0 ≤ e then den * twoTo e.toNat ≤ num else den ≤ num * twoTo (-e).toNat) ↔
      (2 : ℚ) ^ e ≤ (num : ℚ) / den := by
  have hden : (0 : ℚ) < den := by exact_mod_cast hd
  split
  · rename_i he
    obtain ⟨k, rfl⟩ := Int.eq_ofNat_of_zero_le he
    rw [le_div_iff₀ hden, zpow_natCast, mul_comm (2 ^ k : ℚ)]
    change den * 2 ^ k ≤ num ↔ _
    exact_mod_cast Iff.rfl
  · rename_i he
    obtain ⟨k, hk⟩ := Int.eq_ofNat_of_zero_le (show 0 ≤ -e by omega)
    obtain rfl : e = -(k : ℤ) := by omega
    have hpow : (0 : ℚ) < 2 ^ k := by positivity
    rw [le_div_iff₀ hden, zpow_neg, zpow_natCast, inv_mul_le_iff₀ hpow, neg_neg,
      mul_comm (2 ^ k : ℚ)]
    change den ≤ num * 2 ^ k ↔ _
    exact_mod_cast Iff.rfl

theorem placeOf_eq {num den : Nat} (hn : num ≠ 0) (hd : den ≠ 0) :
    placeOf num den = max minExponent (Int.log 2 ((num : ℚ) / den) - 52) := by
  have hnum : (0 : ℚ) < num := by exact_mod_cast Nat.pos_of_ne_zero hn
  have hden : (0 : ℚ) < den := by exact_mod_cast Nat.pos_of_ne_zero hd
  have hq : (0 : ℚ) < (num : ℚ) / den := by positivity
  have hnlow : (2 : ℚ) ^ (num.log2 : ℤ) ≤ num := by exact_mod_cast Nat.log2_self_le hn
  have hnhigh : (num : ℚ) < 2 ^ ((num.log2 : ℤ) + 1) := by exact_mod_cast Nat.lt_log2_self (n := num)
  have hdlow : (2 : ℚ) ^ (den.log2 : ℤ) ≤ den := by exact_mod_cast Nat.log2_self_le hd
  have hdhigh : (den : ℚ) < 2 ^ ((den.log2 : ℤ) + 1) := by exact_mod_cast Nat.lt_log2_self (n := den)
  have htwo : (2 : ℚ) ≠ 0 := by decide
  -- The quotient lies between the powers of two around the difference of the logarithms.
  have hhigh : (num : ℚ) / den < 2 ^ ((num.log2 : ℤ) - den.log2 + 1) := by
    rw [div_lt_iff₀ hden]
    calc (num : ℚ) < 2 ^ ((num.log2 : ℤ) + 1) := hnhigh
      _ = 2 ^ ((num.log2 : ℤ) - den.log2 + 1) * 2 ^ (den.log2 : ℤ) := by
        rw [← zpow_add₀ htwo]
        congr 1
        ring
      _ ≤ 2 ^ ((num.log2 : ℤ) - den.log2 + 1) * den :=
        mul_le_mul_of_nonneg_left hdlow (two_zpow_pos _).le
  have hlow : (2 : ℚ) ^ ((num.log2 : ℤ) - den.log2 - 1) ≤ (num : ℚ) / den := by
    rw [le_div_iff₀ hden]
    calc (2 : ℚ) ^ ((num.log2 : ℤ) - den.log2 - 1) * den
        ≤ 2 ^ ((num.log2 : ℤ) - den.log2 - 1) * 2 ^ ((den.log2 : ℤ) + 1) :=
        mul_le_mul_of_nonneg_left hdhigh.le (two_zpow_pos _).le
      _ = 2 ^ (num.log2 : ℤ) := by
        rw [← zpow_add₀ htwo]
        congr 1
        ring
      _ ≤ num := hnlow
  unfold placeOf
  simp only [fits_iff (Nat.pos_of_ne_zero hd)]
  split
  · rename_i hfits
    rw [log_eq hq hfits hhigh]
  · rename_i hfits
    rw [log_eq hq hlow (by rw [sub_add_cancel]; exact lt_of_not_ge hfits)]
    congr 1
    ring

theorem divideEven_mul (num den : Nat) {c : Nat} (hc : 0 < c) :
    divideEven (num * c) (den * c) = divideEven num den := by
  have hdiv : num * c / (den * c) = num / den := Nat.mul_div_mul_right num den hc
  have hmod : num * c % (den * c) = num % den * c := Nat.mul_mod_mul_right c num den
  have htwice : 2 * (num % den * c) = 2 * (num % den) * c := (Nat.mul_assoc _ _ _).symm
  have hlt : den * c < 2 * (num % den) * c ↔ den < 2 * (num % den) := Nat.mul_lt_mul_right hc
  have heq : 2 * (num % den) * c = den * c ↔ 2 * (num % den) = den := Nat.mul_left_inj hc.ne'
  unfold divideEven
  simp only [hdiv, hmod, htwice, hlt]
  by_cases h : 2 * (num % den) = den
  · simp [h]
  · have hne : ¬ 2 * (num % den) * c = den * c := fun h' => h (heq.mp h')
    simp [h, hne]

theorem ofQuotient_mul (negative : Bool) (num : Nat) {den c : Nat} (hd : den ≠ 0) (hc : 0 < c) :
    ofQuotient negative (num * c) (den * c) = ofQuotient negative num den := by
  by_cases hn : num = 0
  · subst hn
    rw [Nat.zero_mul]
    rfl
  · have hnc : num * c ≠ 0 := Nat.mul_ne_zero hn hc.ne'
    have hplace : placeOf (num * c) (den * c) = placeOf num den := by
      have hcq : (c : ℚ) ≠ 0 := by exact_mod_cast hc.ne'
      rw [placeOf_eq hnc (Nat.mul_ne_zero hd hc.ne'), placeOf_eq hn hd]
      push_cast
      rw [mul_div_mul_right _ _ hcq]
    unfold ofQuotient
    rw [if_neg hn, if_neg hnc, hplace]
    have hup : ∀ k, divideEven (num * c) (den * c * k) = divideEven num (den * k) := fun k => by
      rw [Nat.mul_right_comm, divideEven_mul _ _ hc]
    have hdown : ∀ k, divideEven (num * c * k) (den * c) = divideEven (num * k) den := fun k => by
      rw [Nat.mul_right_comm, divideEven_mul _ _ hc]
    simp only [hup, hdown]

theorem divideEven_exact (m : Nat) {den : Nat} (hd : 0 < den) : divideEven (m * den) den = m := by
  unfold divideEven
  rw [Nat.mul_div_cancel m hd, Nat.mul_mod_left]
  simp [hd.ne]

/-- Rounding depends on the value of a quotient alone. -/
theorem ofQuotient_congr (negative : Bool) {num den num' den' : Nat} (hd : den ≠ 0) (hd' : den' ≠ 0)
    (h : num * den' = num' * den) : ofQuotient negative num den = ofQuotient negative num' den' := by
  rw [← ofQuotient_mul negative num hd (Nat.pos_of_ne_zero hd'), h, Nat.mul_comm den den',
    ofQuotient_mul negative num' hd' (Nat.pos_of_ne_zero hd)]

theorem scaled_snd_ne_zero (m : Nat) (e : ℤ) : (scaled m e).2 ≠ 0 := by
  unfold scaled
  split
  · exact Nat.one_ne_zero
  · exact (Nat.pow_pos (by decide)).ne'

theorem scaled_value (m : Nat) (e : ℤ) : ((scaled m e).1 : ℚ) / (scaled m e).2 = m * 2 ^ e := by
  unfold scaled
  split
  · rename_i he
    obtain ⟨k, rfl⟩ := Int.eq_ofNat_of_zero_le he
    simp [twoTo]
  · rename_i he
    obtain ⟨k, hk⟩ := Int.eq_ofNat_of_zero_le (show 0 ≤ -e by omega)
    obtain rfl : e = -(k : ℤ) := by omega
    simp [twoTo, div_eq_mul_inv]

theorem scaled_fst_ne_zero {m : Nat} (hm : m ≠ 0) (e : ℤ) : (scaled m e).1 ≠ 0 := by
  unfold scaled
  split
  · exact Nat.mul_ne_zero hm (Nat.pow_pos (by decide)).ne'
  · exact hm

/-- The place of a representable number is its exponent, as its digits fill the places or the exponent is the least. -/
theorem placeOf_scaled {m : Nat} {e : ℤ} (h : Representable m e) (hm : m ≠ 0) :
    placeOf (scaled m e).1 (scaled m e).2 = e := by
  obtain ⟨hlt, hmin, -, hnormal⟩ := h
  have hpos : (0 : ℚ) < m := by exact_mod_cast Nat.pos_of_ne_zero hm
  have htwo : (2 : ℚ) ≠ 0 := by decide
  have hproduct : (0 : ℚ) < m * 2 ^ e := mul_pos hpos (two_zpow_pos e)
  have hhigh : (m : ℚ) * 2 ^ e < 2 ^ (e + 52 + 1) := by
    have hm53 : (m : ℚ) < 2 ^ (53 : ℤ) := by exact_mod_cast hlt
    calc (m : ℚ) * 2 ^ e < 2 ^ (53 : ℤ) * 2 ^ e := mul_lt_mul_of_pos_right hm53 (two_zpow_pos e)
      _ = 2 ^ (e + 52 + 1) := by
        rw [← zpow_add₀ htwo]
        congr 1
        ring
  rw [placeOf_eq (scaled_fst_ne_zero hm e) (scaled_snd_ne_zero m e), scaled_value m e]
  rcases hnormal with hfull | he
  · have hlow : (2 : ℚ) ^ (e + 52) ≤ m * 2 ^ e := by
      have hm52 : (2 : ℚ) ^ (52 : ℤ) ≤ m := by exact_mod_cast hfull
      calc (2 : ℚ) ^ (e + 52) = 2 ^ (52 : ℤ) * 2 ^ e := by
            rw [← zpow_add₀ htwo]
            congr 1
            ring
        _ ≤ m * 2 ^ e := mul_le_mul_of_nonneg_right hm52 (two_zpow_pos e).le
    rw [log_eq hproduct hlow hhigh]
    omega
  · have hlog : Int.log 2 ((m : ℚ) * 2 ^ e) < e + 52 + 1 :=
      (Int.lt_zpow_iff_log_lt (by decide) hproduct).mp (by exact_mod_cast hhigh)
    omega

/-- At its own place a scaled number is divided without a rest. -/
theorem divideEven_scaled (m : Nat) (e : ℤ) :
    (if 0 ≤ e then divideEven (scaled m e).1 ((scaled m e).2 * twoTo e.toNat)
      else divideEven ((scaled m e).1 * twoTo (-e).toNat) (scaled m e).2) = m := by
  unfold scaled
  split
  · rw [Nat.one_mul]
    exact divideEven_exact m (Nat.pow_pos (by decide))
  · exact divideEven_exact m (Nat.pow_pos (by decide))

/-- A representable number is rounded to itself. -/
theorem ofQuotient_scaled {m : Nat} {e : ℤ} (h : Representable m e) (hm : m ≠ 0) (negative : Bool) :
    ofQuotient negative (scaled m e).1 (scaled m e).2 = .finite negative m e h := by
  have hlt : m ≠ twoTo 53 := h.1.ne
  unfold ofQuotient
  rw [if_neg (scaled_fst_ne_zero hm e), placeOf_scaled h hm]
  simp only [divideEven_scaled, hlt, if_false]
  rw [ofParts, dif_pos h]

end Dashboard.Number.Binary64
