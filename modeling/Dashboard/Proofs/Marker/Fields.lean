import Dashboard.Marker.Text
import Dashboard.Proofs.Text.Blank
/-!
# Written fields are read back

A field is written as a blank, a key, a colon and a value. A value is read up to its end, whether it
stands between quotes or not, because the next thing is a field or nothing. So the fields of a
marker are read back one by one.
-/

namespace Dashboard.Marker

open Dashboard.Text

/-- A word that can be the key of a field. -/
def IsKey (cs : List Char) : Prop := cs ≠ [] ∧ ∀ c ∈ cs, isKeyChar c = true

instance (cs : List Char) : Decidable (IsKey cs) :=
  @instDecidableAnd _ _ inferInstance (List.decidableBAll _ cs)

theorem isBlank_of_isKeyChar {c : Char} (h : isKeyChar c = true) : isBlank c = false := by
  have hrange : 48 ≤ c.toNat ∧ c.toNat ≤ 122 := by
    simp only [isKeyChar, Char.isAlphanum] at h
    delta Char.isAlpha Char.isUpper Char.isLower Char.isDigit at h
    simp only [Bool.or_eq_true, Bool.and_eq_true, decide_eq_true_eq, beq_iff_eq,
      UInt32.le_iff_toNat_le] at h
    change 48 ≤ c.val.toNat ∧ c.val.toNat ≤ 122
    rcases h with ((⟨h₁, h₂⟩ | ⟨h₁, h₂⟩) | ⟨h₁, h₂⟩) | rfl
    · exact ⟨Nat.le_trans (by decide) h₁, Nat.le_trans h₂ (by decide)⟩
    · exact ⟨Nat.le_trans (by decide) h₁, Nat.le_trans h₂ (by decide)⟩
    · exact ⟨Nat.le_trans (by decide) h₁, Nat.le_trans h₂ (by decide)⟩
    · exact ⟨by decide, by decide⟩
  simp only [isBlank, Bool.or_eq_false_iff, Bool.and_eq_false_iff, decide_eq_false_iff_not,
    beq_eq_false_iff_ne]
  omega

theorem takeWhile_isKeyChar {key : List Char} (h : IsKey key) (cs : List Char) :
    (key ++ ':' :: cs).takeWhile isKeyChar = key := by
  rw [List.takeWhile_append_of_pos h.2, List.takeWhile_cons_of_neg (by decide), List.append_nil]

theorem dropWhile_isKeyChar {key : List Char} (h : IsKey key) (cs : List Char) :
    (key ++ ':' :: cs).dropWhile isKeyChar = ':' :: cs := by
  rw [List.dropWhile_append_of_pos h.2, List.dropWhile_cons_of_neg (by decide)]

theorem skipBlank_key {key : List Char} (h : IsKey key) (cs : List Char) :
    skipBlank (' ' :: (key ++ cs)) = key ++ cs := by
  cases key with
  | nil => exact absurd rfl h.1
  | cons c key => exact skipBlank_cons (isBlank_of_isKeyChar (h.2 c List.mem_cons_self)) _

/-- What may stand after a value: nothing, or the next field. -/
inductive EndsValue : List Char → Prop where
  | nothing : EndsValue []
  | field {key : List Char} (h : IsKey key) (cs : List Char) :
      EndsValue (' ' :: (key ++ ':' :: cs))

theorem EndsValue.plainValue {rest : List Char} (h : EndsValue rest) :
    plainValue rest = ([], rest) := by
  cases h with
  | nothing => rfl
  | @field key hkey cs =>
    have hfollows : keyFollows (' ' :: (key ++ ':' :: cs)) = true := by
      rw [keyFollows, skipBlank_key hkey]
      simp only [takeWhile_isKeyChar hkey, dropWhile_isKeyChar hkey]
      cases key with
      | nil => exact absurd rfl hkey.1
      | cons c key => rfl
    rw [Marker.plainValue, hfollows]
    rfl

/-- A value without blanks ends at the next field. -/
theorem plainValue_append {v rest : List Char} (hv : ∀ c ∈ v, isBlank c = false)
    (hrest : EndsValue rest) : plainValue (v ++ rest) = (v, rest) := by
  induction v with
  | nil => exact hrest.plainValue
  | cons c v ih =>
    rw [List.cons_append, plainValue, hv c List.mem_cons_self,
      ih fun d hd => hv d (List.mem_cons_of_mem c hd)]
    rfl

theorem plain_of_needsQuotes {v : List Char} (h : needsQuotes v = false) :
    v ≠ [] ∧ ∀ c ∈ v, isBlank c = false ∧ c ≠ ':' ∧ c ≠ '"' ∧ c ≠ '\\' := by
  simp only [needsQuotes, Bool.or_eq_false_iff, List.isEmpty_eq_false_iff, List.any_eq_false,
    Bool.or_eq_true, beq_iff_eq, not_or] at h
  refine ⟨h.1, fun c hc => ?_⟩
  obtain ⟨⟨⟨hblank, hcolon⟩, hquote⟩, hslash⟩ := h.2 c hc
  exact ⟨by simpa using hblank, hcolon, hquote, hslash⟩

theorem value_encodeChars (v : List Char) {rest : List Char} (hrest : EndsValue rest) :
    value (encodeChars v ++ rest) = (v, rest) := by
  unfold encodeChars
  cases hq : needsQuotes v with
  | true =>
    rw [if_pos rfl, List.append_assoc, List.cons_append]
    exact quotedValue_escaped v rest
  | false =>
    obtain ⟨hne, hplain⟩ := plain_of_needsQuotes hq
    have hblank : ∀ c ∈ v, isBlank c = false := fun c hc => (hplain c hc).1
    rw [if_neg Bool.false_ne_true]
    cases v with
    | nil => exact absurd rfl hne
    | cons c v =>
      have hquote : c ≠ '"' := (hplain c List.mem_cons_self).2.2.1
      have hvalue := plainValue_append hblank hrest
      rw [List.cons_append] at hvalue ⊢
      rw [value]
      · simp only [hvalue, trimChars_eq hblank]
      · exact fun cs he => hquote (List.cons.inj he).1

def fieldText (e : List Char × List Char) : List Char := ' ' :: (e.1 ++ ':' :: encodeChars e.2)

theorem endsValue_fields {entries : List (List Char × List Char)}
    (h : ∀ e ∈ entries, IsKey e.1) : EndsValue (entries.flatMap fieldText) := by
  cases entries with
  | nil => exact .nothing
  | cons e entries =>
    rw [List.flatMap_cons, fieldText, List.cons_append, List.append_assoc, List.cons_append]
    exact .field (h e List.mem_cons_self) _

theorem fieldsWithin_written {entries : List (List Char × List Char)}
    (h : ∀ e ∈ entries, IsKey e.1) {n : Nat} (hn : entries.length ≤ n) :
    fieldsWithin n (entries.flatMap fieldText) = entries := by
  induction entries generalizing n with
  | nil =>
    cases n with
    | zero => rfl
    | succ n => rfl
  | cons e entries ih =>
    obtain ⟨key, v⟩ := e
    have hkey : IsKey key := h (key, v) List.mem_cons_self
    have hothers : ∀ e ∈ entries, IsKey e.1 := fun e he => h e (List.mem_cons_of_mem _ he)
    cases n with
    | zero => exact absurd hn (by simp)
    | succ n =>
      have hrest := ih hothers (Nat.le_of_succ_le_succ hn)
      have htext : ((key, v) :: entries).flatMap fieldText =
          ' ' :: (key ++ ':' :: (encodeChars v ++ entries.flatMap fieldText)) := by
        simp [fieldText]
      rw [htext, fieldsWithin, skipBlank_key hkey]
      simp only [takeWhile_isKeyChar hkey, dropWhile_isKeyChar hkey]
      cases key with
      | nil => exact absurd rfl hkey.1
      | cons c key => simp only [value_encodeChars v (endsValue_fields hothers), hrest]

theorem fieldChars_written {entries : List (List Char × List Char)}
    (h : ∀ e ∈ entries, IsKey e.1) : fieldChars (entries.flatMap fieldText) = entries := by
  refine fieldsWithin_written h (Nat.le_succ_of_le ?_)
  induction entries with
  | nil => exact Nat.zero_le _
  | cons e entries ih =>
    have hrest := ih fun e' he' => h e' (List.mem_cons_of_mem e he')
    rw [List.flatMap_cons, List.length_append, List.length_cons, fieldText, List.length_cons]
    omega

end Dashboard.Marker
