import Dashboard.Proofs.Number.Decimals
/-!
# Decimal literals

Code has numbers as digits with a sign and a fraction, and knows no exponents and no words. The plain layout
writes every finite number as such a literal, which denotes the number. An infinity and what is no number
are written as words.
-/

namespace Dashboard.Number

/-- Digits, one at the least. -/
def IsDigits (cs : List Char) : Prop := cs ≠ [] ∧ ∀ c ∈ cs, c.isDigit = true

inductive IsUnsignedLiteral : List Char → Prop where
  | whole {ds : List Char} (hds : IsDigits ds) : IsUnsignedLiteral ds
  | point {ds fs : List Char} (hds : IsDigits ds) (hfs : IsDigits fs) : IsUnsignedLiteral (ds ++ '.' :: fs)

/-- A number in code: an optional minus sign, digits, and an optional fraction. -/
def IsLiteral (cs : List Char) : Prop :=
  ∃ negative ds, IsUnsignedLiteral ds ∧ cs = Binary64.signChars negative ++ ds

/-- A literal for a number. -/
structure Denotes (numeral : String) (x : Binary64) : Prop where
  literal : IsLiteral numeral.toList
  value : Binary64.read? numeral.toList = some x

theorem isDigits_digitsOf (n : Nat) : IsDigits (digitsOf n) :=
  ⟨digitsOf_ne_nil n, fun _ => isDigit_of_mem_digitsOf⟩

variable {cs ds fs : List Char}

theorem IsDigits.append (h : IsDigits ds) (hfs : ∀ c ∈ fs, c.isDigit = true) : IsDigits (ds ++ fs) := by
  refine ⟨List.append_ne_nil_of_left_ne_nil h.1 fs, fun c hc => ?_⟩
  exact (List.mem_append.mp hc).elim (h.2 c) (hfs c)

namespace IsUnsignedLiteral

theorem exists_cons (h : IsUnsignedLiteral cs) : ∃ c ds, cs = c :: ds ∧ c.isDigit = true := by
  have hstart : ∀ {ds}, IsDigits ds → ∀ rest, ∃ c es, ds ++ rest = c :: es ∧ c.isDigit = true := by
    intro ds hds rest
    obtain ⟨c, es, rfl⟩ := List.exists_cons_of_ne_nil hds.1
    exact ⟨c, es ++ rest, rfl, hds.2 c List.mem_cons_self⟩
  cases h with
  | whole hds => simpa using hstart hds []
  | point hds hfs => exact hstart hds _

theorem isDigit_getLast (h : IsUnsignedLiteral cs) : ∃ c, cs.getLast? = some c ∧ c.isDigit = true := by
  have hend : ∀ {ds}, IsDigits ds → ∃ c, ds.getLast? = some c ∧ c.isDigit = true := fun hds =>
    ⟨_, List.getLast?_eq_some_getLast hds.1, hds.2 _ (List.getLast_mem hds.1)⟩
  cases h with
  | whole hds => exact hend hds
  | @point ds fs hds hfs =>
    obtain ⟨c, hc, hdigit⟩ := hend hfs
    refine ⟨c, ?_, hdigit⟩
    rw [List.getLast?_append_of_ne_nil _ (List.cons_ne_nil _ _), List.getLast?_cons_of_ne_nil hfs.1, hc]

theorem mem (h : IsUnsignedLiteral cs) {c : Char} (hc : c ∈ cs) : c.isDigit = true ∨ c = '.' := by
  cases h with
  | whole hds => exact .inl (hds.2 c hc)
  | point hds hfs =>
    rcases List.mem_append.mp hc with hc | hc
    · exact .inl (hds.2 c hc)
    · exact (List.mem_cons.mp hc).symm.imp_left (hfs.2 c)

end IsUnsignedLiteral

namespace IsLiteral

theorem isDigit_getLast (h : IsLiteral cs) : ∃ c, cs.getLast? = some c ∧ c.isDigit = true := by
  obtain ⟨negative, ds, hds, rfl⟩ := h
  obtain ⟨c, es, rfl, -⟩ := hds.exists_cons
  rw [List.getLast?_append_of_ne_nil _ (List.cons_ne_nil c es)]
  exact hds.isDigit_getLast

theorem mem (h : IsLiteral cs) {c : Char} (hc : c ∈ cs) : c.isDigit = true ∨ c ∈ ['-', '.'] := by
  obtain ⟨negative, ds, hds, rfl⟩ := h
  rcases List.mem_append.mp hc with hc | hc
  · cases negative with
    | false => exact absurd hc List.not_mem_nil
    | true => exact .inr (List.mem_singleton.mp hc ▸ List.mem_cons_self)
  · exact (hds.mem hc).imp_right fun h => by rw [h]; decide

end IsLiteral

namespace Binary64

open Decimal

theorem isUnsignedLiteral_positional (n : Nat) (exponent : Int) :
    IsUnsignedLiteral (positional (digitsOf n) exponent) := by
  have hdigit : ∀ c ∈ digitsOf n, c.isDigit = true := (isDigits_digitsOf n).2
  simp only [positional]
  split
  · exact .whole ((isDigits_digitsOf n).append fun c => isDigit_of_mem_zeros)
  · rename_i hneg
    split
    · rename_i hlt
      refine .point ⟨?_, fun c hc => hdigit c (List.mem_of_mem_take hc)⟩
        ⟨?_, fun c hc => hdigit c (List.mem_of_mem_drop hc)⟩
      · rw [Ne, List.take_eq_nil_iff]
        have hne := digitsOf_ne_nil n
        rintro (h | h)
        · omega
        · exact hne h
      · rw [Ne, List.drop_eq_nil_iff]
        omega
    · have hzero : IsDigits ['0'] := ⟨List.cons_ne_nil _ _, List.forall_mem_singleton.mpr rfl⟩
      have hzeros : ∀ c ∈ zeros ((-exponent).toNat - (digitsOf n).length), c.isDigit = true :=
        fun c => isDigit_of_mem_zeros
      refine .point hzero ⟨List.append_ne_nil_of_right_ne_nil _ (digitsOf_ne_nil n), fun c hc => ?_⟩
      exact (List.mem_append.mp hc).elim (hzeros c) (hdigit c)

/-- A decimal past every finite number is infinite, so one that is finite has few zeros. -/
theorem exponent_le_of_toBinary64 {d : Decimal} {negative : Bool} (hdigits : d.digits ≠ 0)
    (h : (d.toBinary64 negative).isFinite = true) : d.exponent ≤ 400 := by
  by_contra hlarge
  rw [Decimal.toBinary64] at h
  simp only [hdigits, if_false] at h
  rw [if_pos (by omega)] at h
  exact absurd h Bool.false_ne_true

/-- Digits in the plain layout are read as a decimal of the same value. -/
theorem read?_plain {d : Decimal} {negative : Bool} (h : (d.toBinary64 negative).isFinite = true) :
    ∃ d', Decimal.read? (positional (digitsOf d.digits) d.exponent) = some d' ∧
      d'.toBinary64 negative = d.toBinary64 negative := by
  by_cases hpos : 0 ≤ d.exponent
  · have hdigits : IsDigits (digitsOf d.digits ++ zeros d.exponent.toNat) :=
      (isDigits_digitsOf d.digits).append fun c => isDigit_of_mem_zeros
    rw [positional, if_pos hpos, Decimal.read?_whole hdigits.2 hdigits.1, digitsValue_zeros, digitsValue_digitsOf]
    refine ⟨_, rfl, ?_⟩
    by_cases hzero : d.digits = 0
    · rw [toBinary64_zero hzero, toBinary64_zero]
      change d.digits * tenTo d.exponent.toNat = 0
      rw [hzero, Nat.zero_mul]
    · have hten : tenTo d.exponent.toNat ≠ 0 := (Nat.pow_pos (by decide)).ne'
      have hone : ∀ n, n * tenTo (0 : Int).toNat = n := Nat.mul_one
      have hsmall := exponent_le_of_toBinary64 hzero h
      rw [toBinary64_of_exponent (Nat.mul_ne_zero hzero hten) (by simp) (by simp),
        toBinary64_of_exponent hzero (by omega) hsmall, if_pos hpos]
      simp only [le_refl, if_true, hone]
  · exact ⟨d, Decimal.read?_positional (by omega), rfl⟩

theorem read?_unsigned (h : IsUnsignedLiteral cs) (negative : Bool) :
    read? (signChars negative ++ cs) = readUnsigned? negative cs := by
  obtain ⟨c, ds, rfl, hc⟩ := h.exists_cons
  exact read?_signChars hc negative ds

/-- A finite number in the plain layout is a literal for the number. -/
theorem denotes_plainText {x : Binary64} (hx : x.isFinite = true) : Denotes x.plainText x := by
  cases x with
  | infinite s => exact absurd hx Bool.false_ne_true
  | nan => exact absurd hx Bool.false_ne_true
  | finite s m e h =>
    by_cases hm : m = 0
    · subst hm
      obtain rfl : e = minExponent := h.2.2.2.resolve_left (by decide)
      have hzero : zero s = .finite s 0 minExponent h := by rw [zero, ofParts, dif_pos h]
      have hliteral : IsUnsignedLiteral ['0'] := .whole ⟨List.cons_ne_nil _ _, List.forall_mem_singleton.mpr rfl⟩
      have hchars : (plainText (.finite s 0 minExponent h)).toList = signChars s ++ ['0'] := by
        simp only [plainText, if_true, String.toList_ofList]
      refine ⟨⟨s, _, hliteral, hchars⟩, ?_⟩
      rw [hchars, read?_unsigned hliteral, readUnsigned?, show Decimal.read? ['0'] = some ⟨0, 0⟩ by decide]
      exact congrArg some ((toBinary64_zero rfl s).trans hzero)
    · have hback := toBinary64_shortest h hm s
      have hliteral := isUnsignedLiteral_positional (shortest (.finite s m e h) m e).digits
        (shortest (.finite s m e h) m e).exponent
      have hchars : (plainText (.finite s m e h)).toList = signChars s ++
          positional (digitsOf (shortest (.finite s m e h) m e).digits) (shortest (.finite s m e h) m e).exponent := by
        simp only [plainText, hm, if_false, String.toList_ofList]
      have hfinite : ((shortest (.finite s m e h) m e).toBinary64 s).isFinite = true := by rw [hback]; rfl
      obtain ⟨d, hd, hvalue⟩ := read?_plain hfinite
      refine ⟨⟨s, _, hliteral, hchars⟩, ?_⟩
      rw [hchars, read?_unsigned hliteral, readUnsigned?, hd]
      exact congrArg some (hvalue.trans hback)

theorem isLiteral_plainText_iff {x : Binary64} : IsLiteral x.plainText.toList ↔ x.isFinite = true := by
  refine ⟨fun h => ?_, fun hx => (denotes_plainText hx).literal⟩
  obtain ⟨c, hc, hdigit⟩ := h.isDigit_getLast
  cases x with
  | finite s m e h => rfl
  | infinite s =>
    have hlast : (plainText (.infinite s)).toList.getLast? = some 'f' := by cases s <;> decide
    rw [hlast] at hc
    cases hc
    exact absurd hdigit (by decide)
  | nan =>
    have hlast : (plainText .nan).toList.getLast? = some 'N' := by decide
    rw [hlast] at hc
    cases hc
    exact absurd hdigit (by decide)

end Binary64

end Dashboard.Number
