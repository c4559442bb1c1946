import Dashboard.Number.Format
import Dashboard.Proofs.Number.Digits
/-!
# The characters of numerals

Both layouts of floating point numbers use digits, signs, a point and the letter of the exponent.
-/

namespace Dashboard.Number

/-- A character of a written finite number. -/
def IsNumeralChar (c : Char) : Prop := c.isDigit = true ∨ c ∈ ['-', '+', '.', 'e']

theorem isNumeralChar_of_mem_digitsOf {n : Nat} {c : Char} (h : c ∈ digitsOf n) : IsNumeralChar c :=
  .inl (isDigit_of_mem_digitsOf h)

theorem isNumeralChar_intText {i : Int} {c : Char} (h : c ∈ (intText i).toList) :
    IsNumeralChar c := by
  unfold intText at h
  split at h
  · rw [String.toList_ofList] at h
    rcases List.mem_cons.mp h with rfl | h
    · exact .inr (by decide)
    · exact isNumeralChar_of_mem_digitsOf h
  · rw [String.toList_ofList] at h
    exact isNumeralChar_of_mem_digitsOf h

theorem intText_ne_nil (i : Int) : (intText i).toList ≠ [] := by
  unfold intText
  split
  · simp
  · rw [String.toList_ofList]
    exact digitsOf_ne_nil _

namespace Binary64

theorem isNumeralChar_positional {n : Nat} {exponent : Int} {c : Char}
    (h : c ∈ positional (digitsOf n) exponent) : IsNumeralChar c := by
  have hzeros : ∀ k, c ∈ zeros k → IsNumeralChar c := fun k hk =>
    .inl (List.eq_of_mem_replicate hk ▸ rfl)
  unfold positional at h
  split at h
  · rcases List.mem_append.mp h with h | h
    · exact isNumeralChar_of_mem_digitsOf h
    · exact hzeros _ h
  · simp only at h
    split at h
    · rcases List.mem_append.mp h with h | h
      · exact isNumeralChar_of_mem_digitsOf (List.mem_of_mem_take h)
      · rcases List.mem_cons.mp h with rfl | h
        · exact .inr (by decide)
        · exact isNumeralChar_of_mem_digitsOf (List.mem_of_mem_drop h)
    · rcases List.mem_append.mp h with h | h
      · rcases List.mem_cons.mp h with rfl | h
        · exact .inl (by decide)
        · rcases List.mem_cons.mp h with rfl | h
          · exact .inr (by decide)
          · exact hzeros _ h
      · exact isNumeralChar_of_mem_digitsOf h

theorem isNumeralChar_scientific {n : Nat} {exponent : Int} {c : Char}
    (h : c ∈ scientific (digitsOf n) exponent) : IsNumeralChar c := by
  unfold scientific at h
  rcases List.mem_append.mp h with h | h
  · obtain ⟨d, ds, hds, hd⟩ := exists_digitsOf_cons n
    have hmem : ∀ x ∈ d :: ds, IsNumeralChar x := fun x hx =>
      isNumeralChar_of_mem_digitsOf (hds ▸ hx)
    rw [hds] at h
    cases ds with
    | nil => exact hmem c h
    | cons d' ds =>
      rcases List.mem_cons.mp h with rfl | h
      · exact hmem _ List.mem_cons_self
      · rcases List.mem_cons.mp h with rfl | h
        · exact .inr (by decide)
        · exact hmem c (List.mem_cons_of_mem d h)
  · rcases List.mem_cons.mp h with rfl | h
    · exact .inr (by decide)
    · rcases List.mem_cons.mp h with rfl | h
      · split
        · exact .inr (by decide)
        · exact .inr (by decide)
      · exact isNumeralChar_of_mem_digitsOf h

theorem isNumeralChar_documentChars {d : Decimal} {c : Char} (h : c ∈ documentChars d) :
    IsNumeralChar c := by
  unfold documentChars at h
  simp only at h
  split at h
  · split at h
    · rcases List.mem_append.mp h with h | h
      · exact isNumeralChar_positional h
      · rcases List.mem_cons.mp h with rfl | h
        · exact .inr (by decide)
        · exact .inl (List.mem_singleton.mp h ▸ rfl)
    · exact isNumeralChar_positional h
  · exact isNumeralChar_scientific h

theorem isNumeralChar_signChars {negative : Bool} {c : Char} (h : c ∈ signChars negative) :
    IsNumeralChar c := by
  cases negative with
  | false => exact absurd h List.not_mem_nil
  | true =>
    rw [List.mem_singleton.mp h]
    exact .inr (by decide)

theorem isNumeralChar_documentText {x : Binary64} (hx : x.isFinite = true) {c : Char}
    (h : c ∈ x.documentText.toList) : IsNumeralChar c := by
  cases x with
  | infinite s => exact absurd hx Bool.false_ne_true
  | nan => exact absurd hx Bool.false_ne_true
  | finite s m e hrep =>
    unfold documentText at h
    split at h
    · rename_i he
      split at h
      · rw [String.toList_ofList] at h
        rcases List.mem_append.mp h with h | h
        · exact isNumeralChar_signChars h
        · simp only [List.mem_cons, List.not_mem_nil, or_false] at h
          rcases h with rfl | rfl | rfl
          · exact .inl (by decide)
          · exact .inr (by decide)
          · exact .inl (by decide)
      · rw [String.toList_ofList] at h
        rcases List.mem_append.mp h with h | h
        · exact isNumeralChar_signChars h
        · exact isNumeralChar_documentChars h
    · rename_i hne
      exact absurd rfl (hne s m e hrep)

theorem positional_ne_nil (n : Nat) (exponent : Int) : positional (digitsOf n) exponent ≠ [] := by
  unfold positional
  split
  · exact List.append_ne_nil_of_left_ne_nil (digitsOf_ne_nil n) _
  · simp only
    split <;> simp

theorem documentChars_ne_nil (d : Decimal) : documentChars d ≠ [] := by
  unfold documentChars
  simp only
  split
  · split
    · exact List.append_ne_nil_of_right_ne_nil _ (List.cons_ne_nil _ _)
    · exact positional_ne_nil _ _
  · exact List.append_ne_nil_of_right_ne_nil _ (List.cons_ne_nil _ _)

theorem documentText_ne_nil (x : Binary64) : x.documentText.toList ≠ [] := by
  unfold documentText
  split
  · split
    · rw [String.toList_ofList]
      exact List.append_ne_nil_of_right_ne_nil _ (List.cons_ne_nil _ _)
    · rw [String.toList_ofList]
      exact List.append_ne_nil_of_right_ne_nil _ (documentChars_ne_nil _)
  · decide

theorem not_mem_plainText {c : Char} (hnumeral : ¬ IsNumeralChar c) (hwords : c ∉ "-infNaN".toList)
    (x : Binary64) : c ∉ x.plainText.toList := by
  intro h
  cases x with
  | infinite s =>
    refine hwords ?_
    have hsub : (plainText (.infinite s)).toList ⊆ "-infNaN".toList := by cases s <;> decide
    exact hsub h
  | nan =>
    refine hwords ?_
    have hsub : (plainText .nan).toList ⊆ "-infNaN".toList := by decide
    exact hsub h
  | finite s m e hrep =>
    refine hnumeral ?_
    unfold plainText at h
    split at h
    · split at h
      · rw [String.toList_ofList] at h
        rcases List.mem_append.mp h with h | h
        · exact isNumeralChar_signChars h
        · exact .inl (List.mem_singleton.mp h ▸ by decide)
      · rw [String.toList_ofList] at h
        rcases List.mem_append.mp h with h | h
        · exact isNumeralChar_signChars h
        · exact isNumeralChar_positional h
    · rename_i hinf
      exact nomatch hinf
    · rename_i hnan
      exact nomatch hnan

theorem newline_not_mem_plainText (x : Binary64) : '\n' ∉ x.plainText.toList := by
  refine not_mem_plainText ?_ (by decide) x
  rintro (h | h)
  · exact absurd h (by decide)
  · exact absurd h (by decide)

end Binary64

end Dashboard.Number
