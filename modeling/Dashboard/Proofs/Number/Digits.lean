import Dashboard.Number.Integer
import Dashboard.Text.Pattern
/-!
# Written whole numbers are read back

The digits of a number are ASCII digits, at least one, and they denote the number. Every reader
takes the run of digits to its end, so what follows them must not be a digit.
-/

namespace Dashboard.Number

open Text

theorem isDigit_of_mem_digitsOf {n : Nat} {c : Char} (h : c ∈ digitsOf n) : c.isDigit = true :=
  Nat.isDigit_of_mem_toDigits (by decide) (by decide) h

theorem toNat_of_isDigit {c : Char} (h : c.isDigit = true) : 48 ≤ c.toNat ∧ c.toNat ≤ 57 := by
  simp only [Char.isDigit, Bool.and_eq_true, decide_eq_true_eq] at h
  exact ⟨h.1, h.2⟩

theorem isDecimal_of_isDigit {c : Char} (h : c.isDigit = true) : isDecimal c = true := by
  have hc := toNat_of_isDigit h
  rw [isDecimal_of_ascii (by omega), h]

theorem isBlank_of_isDigit {c : Char} (h : c.isDigit = true) : isBlank c = false := by
  have hc := toNat_of_isDigit h
  simp only [isBlank, Bool.or_eq_false_iff, Bool.and_eq_false_iff, decide_eq_false_iff_not,
    beq_eq_false_iff_ne]
  omega

theorem digitsOf_ne_nil (n : Nat) : digitsOf n ≠ [] := Nat.toDigits_ne_nil

theorem digitsValue_append (cs ds : List Char) :
    digitsValue (cs ++ ds) = ds.foldl (fun n c => 10 * n + digitValue c) (digitsValue cs) :=
  List.foldl_append

@[simp] theorem digitsValue_digitsOf (n : Nat) : digitsValue (digitsOf n) = n :=
  Nat.ofDigitChars_ten_toDigits

theorem natOfDigits?_digitsOf (n : Nat) : natOfDigits? (digitsOf n) = some n := by
  have hall : (digitsOf n).all Char.isDigit = true :=
    List.all_eq_true.mpr fun _ => isDigit_of_mem_digitsOf
  simp [natOfDigits?, digitsOf_ne_nil, hall]

/-- The digits of a number do not start with a sign. -/
theorem exists_digitsOf_cons (n : Nat) : ∃ c cs, digitsOf n = c :: cs ∧ c.isDigit = true := by
  cases h : digitsOf n with
  | nil => exact absurd h (digitsOf_ne_nil n)
  | cons c cs => exact ⟨c, cs, rfl, isDigit_of_mem_digitsOf (h ▸ List.mem_cons_self)⟩

/-- The digits of a number have no zero at their start, but for zero itself. -/
theorem eq_zero_of_digitsOf {n : Nat} {cs : List Char} (h : digitsOf n = '0' :: cs) : n = 0 := by
  induction n using Nat.strongRecOn generalizing cs with
  | ind n ih =>
    rw [digitsOf, Nat.toDigits_eq_if (by decide)] at h
    split at h
    · rename_i hsmall
      have hzero : ∀ k < 10, Nat.digitChar k = '0' → k = 0 := by decide
      exact hzero n hsmall (List.cons.inj h).1
    · obtain ⟨d, ds, hds⟩ := List.exists_cons_of_ne_nil (digitsOf_ne_nil (n / 10))
      rw [← digitsOf, hds, List.cons_append] at h
      have hhead : digitsOf (n / 10) = '0' :: ds := by rw [hds, (List.cons.inj h).1]
      have hquotient := ih (n / 10) (by omega) hhead
      omega

theorem readNat?_digitsOf {limit n : Nat} (h : n < limit) : readNat? limit (digitsOf n) = some n := by
  obtain ⟨c, cs, hcs, hc⟩ := exists_digitsOf_cons n
  have hsign : c ≠ '+' := fun he => absurd hc (by rw [he]; decide)
  have hvalue := natOfDigits?_digitsOf n
  rw [hcs] at hvalue ⊢
  rw [readNat?, hvalue]
  · exact Option.filter_eq_some_iff.mpr ⟨rfl, by simpa using h⟩
  · exact fun ds he => hsign (List.cons.inj he).1

theorem readInt?_digitsOf {lowest highest : Int} {n : Nat} (hlow : lowest ≤ n) (hhigh : n ≤ highest) :
    readInt? lowest highest (digitsOf n) = some (n : Int) := by
  obtain ⟨c, cs, hcs, hc⟩ := exists_digitsOf_cons n
  have hplus : c ≠ '+' := fun he => absurd hc (by rw [he]; decide)
  have hminus : c ≠ '-' := fun he => absurd hc (by rw [he]; decide)
  have hvalue := natOfDigits?_digitsOf n
  rw [hcs] at hvalue ⊢
  rw [readInt?, hvalue]
  · exact Option.filter_eq_some_iff.mpr ⟨rfl, by simp [hlow, hhigh]⟩
  · exact fun ds he => hminus (List.cons.inj he).1
  · exact fun ds he => hplus (List.cons.inj he).1

theorem readInt?_intText {lowest highest i : Int} (hlow : lowest ≤ i) (hhigh : i ≤ highest) :
    readInt? lowest highest (intText i).toList = some i := by
  unfold intText
  split
  · rename_i hneg
    have habs : (-(i.natAbs : Int)) = i := by omega
    rw [String.toList_ofList, readInt?, natOfDigits?_digitsOf]
    exact Option.filter_eq_some_iff.mpr ⟨congrArg some habs, by simp [hlow, hhigh]⟩
  · rename_i hpos
    have habs : (i.natAbs : Int) = i := by omega
    rw [String.toList_ofList, readInt?_digitsOf (by omega) (by omega), habs]

theorem takeWhile_isDecimal_digitsOf (n : Nat) {c : Char} (hc : isDecimal c = false)
    (cs : List Char) : (digitsOf n ++ c :: cs).takeWhile isDecimal = digitsOf n := by
  rw [List.takeWhile_append_of_pos fun d hd => isDecimal_of_isDigit (isDigit_of_mem_digitsOf hd),
    List.takeWhile_cons_of_neg (by simp [hc]), List.append_nil]

theorem dropWhile_isDecimal_digitsOf (n : Nat) {c : Char} (hc : isDecimal c = false)
    (cs : List Char) : (digitsOf n ++ c :: cs).dropWhile isDecimal = c :: cs := by
  rw [List.dropWhile_append_of_pos fun d hd => isDecimal_of_isDigit (isDigit_of_mem_digitsOf hd),
    List.dropWhile_cons_of_neg (by simp [hc])]

theorem skipBlank_digitsOf (n : Nat) (cs : List Char) :
    skipBlank (digitsOf n ++ cs) = digitsOf n ++ cs := by
  obtain ⟨c, ds, hds, hc⟩ := exists_digitsOf_cons n
  rw [hds]
  exact List.dropWhile_cons_of_neg (by simp [isBlank_of_isDigit hc])

theorem decimals?_digitsOf (n : Nat) {c : Char} (hc : isDecimal c = false) (cs : List Char) :
    decimals? (digitsOf n ++ c :: cs) = some (digitsOf n, c :: cs) := by
  rw [decimals?, skipBlank_digitsOf]
  simp only [takeWhile_isDecimal_digitsOf n hc, dropWhile_isDecimal_digitsOf n hc]
  cases h : digitsOf n with
  | nil => exact absurd h (digitsOf_ne_nil n)
  | cons d ds => rfl

theorem decimals?_blank_digitsOf (n : Nat) {c : Char} (hc : isDecimal c = false) (cs : List Char) :
    decimals? (' ' :: (digitsOf n ++ c :: cs)) = some (digitsOf n, c :: cs) :=
  decimals?_digitsOf n hc cs

end Dashboard.Number
