import Dashboard.Json.Print
import Dashboard.Proofs.Json.Contents
import Dashboard.Proofs.Number.Numerals
import Mathlib.Data.List.TakeWhile
/-!
# The tokens of written values

Every written text is one token, and so is a written number if what follows it cannot be taken for more
of it. A value that is written on several lines is cut into the tokens of its parts.
-/

namespace Dashboard.Json

open Number

/-! ## Texts -/

theorem hexValue?_hexDigit : ∀ n < 16, hexValue? (hexDigit n) = some n := by decide

theorem hexQuad?_control {n : Nat} (h : n < 32) :
    hexQuad? '0' '0' (hexDigit (n / 16)) (hexDigit (n % 16)) = some n := by
  have hzero : hexValue? '0' = some 0 := rfl
  simp only [hexQuad?, hzero, hexValue?_hexDigit (n / 16) (by omega), hexValue?_hexDigit (n % 16) (by omega),
    bind, Option.bind, pure]
  congr 1
  omega

/-- An escape of four hexadecimal digits, whether or not another one follows. -/
theorem scanText_hex {a b c d : Char} {n : Nat} (h : hexQuad? a b c d = some n) (hn : n < 32)
    (cs : List Char) :
    scanText ('\\' :: 'u' :: a :: b :: c :: d :: cs) = (scanText cs).push (Char.ofNat n) := by
  have hhigh : isHighSurrogate n = false := by simp [isHighSurrogate]; omega
  have hlow : isLowSurrogate n = false := by simp [isLowSurrogate]; omega
  rw [scanText.eq_def]
  split <;> grind

theorem scanText_simple {c d : Char} (h : simpleEscape? c = some d) (hc : c ≠ 'u') (cs : List Char) :
    scanText ('\\' :: c :: cs) = (scanText cs).push d := by
  rw [scanText, if_neg hc, h]
  · exact fun _ _ _ _ _ _ _ _ _ he => absurd he hc
  · exact fun _ _ _ _ _ he => absurd he hc

theorem scanText_plain {c : Char} (hquote : c ≠ '"') (hslash : c ≠ '\\') (hvisible : ¬ c.toNat < 32)
    (cs : List Char) : scanText (c :: cs) = (scanText cs).push c := by
  rw [scanText, if_neg hslash, if_neg hvisible]
  · exact hquote
  · exact fun _ _ _ _ _ _ _ _ _ he => absurd he hslash
  · exact fun _ _ _ _ _ he => absurd he hslash
  · exact fun _ _ he => absurd he hslash

theorem scanText_escapedChar (c : Char) (cs : List Char) :
    scanText (escapedChar c ++ cs) = (scanText cs).push c := by
  have hcontrol : ∀ {d : Char}, c.toNat = d.toNat → c = d := fun h => Char.toNat_inj.mp h
  unfold escapedChar
  split
  · subst c
    exact scanText_simple rfl (by decide) cs
  split
  · subst c
    exact scanText_simple rfl (by decide) cs
  split
  · subst c
    exact scanText_simple rfl (by decide) cs
  split
  · subst c
    exact scanText_simple rfl (by decide) cs
  split
  · subst c
    exact scanText_simple rfl (by decide) cs
  split
  · rename_i h
    obtain rfl : c = '\x08' := hcontrol h
    exact scanText_simple rfl (by decide) cs
  split
  · rename_i h
    obtain rfl : c = '\x0c' := hcontrol h
    exact scanText_simple rfl (by decide) cs
  split
  · rename_i h
    have hscan := scanText_hex (hexQuad?_control h) h cs
    rwa [Char.ofNat_toNat] at hscan
  · exact scanText_plain ‹_› ‹_› ‹_› cs

theorem scanText_escaped (cs rest : List Char) :
    scanText (cs.flatMap escapedChar ++ '"' :: rest) = .closed (.ok cs) rest := by
  induction cs with
  | nil => rw [List.flatMap_nil, List.nil_append, scanText]
  | cons c cs ih => rw [List.flatMap_cons, List.append_assoc, scanText_escapedChar, ih, TextScan.push]

/-! ## Numbers -/

/-- A text whose start cannot be taken for more of a number. -/
def Ends (rest : List Char) : Prop :=
  ∀ c ∈ rest.head?, c.isDigit = false ∧ c ≠ '.' ∧ c ≠ 'e' ∧ c ≠ 'E'

variable {cs rest : List Char} {p q : NumberParts}

theorem ends_nil : Ends [] := nofun

theorem takeWhile_append_ends (h : Ends rest) (cs : List Char) :
    (cs ++ rest).takeWhile Char.isDigit = cs.takeWhile Char.isDigit := by
  induction cs with
  | nil =>
    cases rest with
    | nil => rfl
    | cons c rest => exact List.takeWhile_cons_of_neg (by simp [(h c rfl).1])
  | cons c cs ih =>
    rw [List.cons_append, List.takeWhile_cons, List.takeWhile_cons, ih]

theorem dropWhile_append_ends (h : Ends rest) (cs : List Char) :
    (cs ++ rest).dropWhile Char.isDigit = cs.dropWhile Char.isDigit ++ rest := by
  induction cs with
  | nil =>
    cases rest with
    | nil => rfl
    | cons c rest => exact List.dropWhile_cons_of_neg (by simp [(h c rfl).1])
  | cons c cs ih =>
    rw [List.cons_append, List.dropWhile_cons, List.dropWhile_cons, ih]
    split
    · rfl
    · rfl

theorem scanExponent_ends (h : Ends rest) : scanExponent p rest = .ok (p, rest) := by
  cases rest with
  | nil => rfl
  | cons c rest =>
    obtain ⟨-, -, hlower, hupper⟩ := h c rfl
    simp [scanExponent, hlower, hupper]

/-- The digits of an exponent, after its sign. -/
theorem exponentDigits_append {negative : Bool} (cs : List Char)
    (h : (match cs with
      | [] => Except.error cutNumber
      | d :: _ =>
        if d.isDigit then
          .ok ({ p with exponent := some (negative, cs.takeWhile Char.isDigit) }, cs.dropWhile Char.isDigit)
        else .error badNumber) = .ok (q, []))
    (hrest : Ends rest) :
    (match cs ++ rest with
      | [] => Except.error cutNumber
      | d :: _ =>
        if d.isDigit then
          .ok ({ p with exponent := some (negative, (cs ++ rest).takeWhile Char.isDigit) },
            (cs ++ rest).dropWhile Char.isDigit)
        else .error badNumber) = .ok (q, rest) := by
  rw [takeWhile_append_ends hrest, dropWhile_append_ends hrest]
  cases cs with
  | nil => cases h
  | cons d cs =>
    simp only [List.cons_append] at h ⊢
    split at h
    · obtain ⟨hparts, hdigits⟩ := Prod.mk.inj (Except.ok.inj h)
      rw [if_pos ‹_›, hparts, hdigits, List.nil_append]
    · cases h

theorem scanExponent_append (h : scanExponent p cs = .ok (q, [])) (hrest : Ends rest) :
    scanExponent p (cs ++ rest) = .ok (q, rest) := by
  cases cs with
  | nil =>
    cases h
    exact scanExponent_ends hrest
  | cons c cs =>
    unfold scanExponent at h ⊢
    simp only [List.cons_append] at h ⊢
    split at h
    · rw [if_pos ‹_›]
      rcases cs with _ | ⟨d, cs⟩
      · cases h
      · by_cases hplus : d = '+'
        · subst d
          exact exponentDigits_append cs h hrest
        · by_cases hminus : d = '-'
          · subst d
            exact exponentDigits_append cs h hrest
          · simp only [List.cons_append, List.cons.injEq, hplus, hminus, false_and, imp_false,
              not_false_eq_true, implies_true] at h ⊢
            exact exponentDigits_append (d :: cs) h hrest
    · cases h

theorem scanFraction_append (h : scanFraction p cs = .ok (q, [])) (hrest : Ends rest) :
    scanFraction p (cs ++ rest) = .ok (q, rest) := by
  rcases cs with _ | ⟨c, cs⟩
  · cases h
    rw [List.nil_append, scanFraction]
    · exact scanExponent_ends hrest
    · rintro rfl
      exact (hrest '.' rfl).2.1 rfl
    · rintro d cs rfl
      exact (hrest '.' rfl).2.1 rfl
  · by_cases hpoint : c = '.'
    · subst c
      rcases cs with _ | ⟨d, cs⟩
      · cases h
      · simp only [scanFraction, List.cons_append] at h ⊢
        split at h
        · rw [if_pos ‹_›, ← List.cons_append, takeWhile_append_ends hrest, dropWhile_append_ends hrest]
          exact scanExponent_append h hrest
        · cases h
    · rw [scanFraction] at h
      · rw [List.cons_append, scanFraction]
        · exact scanExponent_append h hrest
        · exact fun he => absurd (List.cons.inj he).1 hpoint
        · exact fun _ _ he => absurd (List.cons.inj he).1 hpoint
      · exact fun he => absurd (List.cons.inj he).1 hpoint
      · exact fun _ _ he => absurd (List.cons.inj he).1 hpoint

theorem scanNumber_append {negative : Bool} (h : scanNumber negative cs = .ok (q, []))
    (hrest : Ends rest) : scanNumber negative (cs ++ rest) = .ok (q, rest) := by
  rcases cs with _ | ⟨c, cs⟩
  · cases h
  · unfold scanNumber at h ⊢
    simp only [takeWhile_append_ends hrest, dropWhile_append_ends hrest] at h ⊢
    generalize List.takeWhile Char.isDigit (c :: cs) = ds at h ⊢
    rw [List.cons_append]
    split at h
    · cases h
    · cases h
    · cases h
    · rename_i hnonempty hzero _
      split
      · rename_i he
        cases he
      · exact absurd rfl hnonempty
      · exact absurd rfl (hzero _ _)
      · exact scanFraction_append h hrest

/-- A number that is written as the text of one number, itself. -/
def IsSpelled (n : Numeral) : Prop :=
  ∃ p c cs, n.text.toList = c :: cs ∧ p.value = .ok n ∧
    ((c = '-' ∧ scanNumber true cs = .ok (p, [])) ∨
      (c.isDigit = true ∧ scanNumber false (c :: cs) = .ok (p, [])))

theorem scanNumber_digitsOf (negative : Bool) (n : Nat) :
    scanNumber negative (digitsOf n) = .ok (⟨negative, digitsOf n, none, none⟩, []) := by
  have hall : ∀ c ∈ digitsOf n, c.isDigit = true := fun _ hc => isDigit_of_mem_digitsOf hc
  have htake : (digitsOf n).takeWhile Char.isDigit = digitsOf n := List.takeWhile_eq_self_iff.mpr hall
  have hdrop : (digitsOf n).dropWhile Char.isDigit = [] := List.dropWhile_eq_nil_iff.mpr hall
  unfold scanNumber
  simp only [htake, hdrop]
  split
  · exact absurd ‹_› (digitsOf_ne_nil n)
  · exact absurd ‹_› (digitsOf_ne_nil n)
  · rename_i hdigits _
    obtain rfl := eq_zero_of_digitsOf hdigits
    cases hdigits
  · rfl

theorem isSpelled_whole {i : Int} (low : lowestOf 64 ≤ i) (high : i ≤ (largestWhole : Int)) :
    IsSpelled (.whole i) := by
  by_cases hnegative : i < 0
  · refine ⟨⟨true, digitsOf i.natAbs, none, none⟩, '-', digitsOf i.natAbs, ?_, ?_,
      .inl ⟨rfl, scanNumber_digitsOf true _⟩⟩
    · rw [Numeral.text, intText, if_pos hnegative, String.toList_ofList]
    · have hlowest : lowestOf 64 = -(twoTo 63 : Nat) := rfl
      have hlargest : twoTo 63 ≤ largestWhole := by decide
      have hbound : i.natAbs ≤ twoTo 63 := by omega
      simp only [NumberParts.value, digitsValue_digitsOf]
      rw [if_pos (by simpa using Nat.le_trans hbound hlargest), if_neg (by decide), if_neg (by simp; omega)]
      congr 3
      omega
  · obtain ⟨c, cs, hcs, hc⟩ := exists_digitsOf_cons i.natAbs
    refine ⟨⟨false, digitsOf i.natAbs, none, none⟩, c, cs, ?_, ?_, .inr ⟨hc, hcs ▸ scanNumber_digitsOf false _⟩⟩
    · rw [Numeral.text, intText, if_neg hnegative, String.toList_ofList, hcs]
    · simp only [NumberParts.value, digitsValue_digitsOf]
      rw [if_pos (by simp; omega), if_pos (by decide)]
      congr 3
      omega

theorem tokensWithin_digit {c : Char} (hc : c.isDigit = true) (k : Nat) (cs : List Char) :
    tokensWithin (k + 1) (c :: cs) = numberToken (tokensWithin k) (scanNumber false (c :: cs)) := by
  have hne : ∀ d : Char, d.isDigit = false → c ≠ d := by
    rintro d hd rfl
    exact absurd hc (by rw [hd]; decide)
  have hspace : isSpace c = false := by
    simp only [isSpace, Bool.or_eq_false_iff, beq_eq_false_iff_ne]
    exact ⟨⟨⟨hne _ rfl, hne _ rfl⟩, hne _ rfl⟩, hne _ rfl⟩
  rw [tokensWithin, hspace]
  simp only [hne '[' rfl, hne ']' rfl, hne '{' rfl, hne '}' rfl, hne ':' rfl, hne ',' rfl, hne 'n' rfl,
    hne 't' rfl, hne 'f' rfl, hne '-' rfl, hc, if_true, if_false, Bool.false_eq_true]

theorem tokensWithin_number {n : Numeral} (h : IsSpelled n) {rest : List Char} (hrest : Ends rest) (k : Nat) :
    tokensWithin (k + 1) (n.text.toList ++ rest) = .number (.ok n) :: tokensWithin k rest := by
  obtain ⟨p, c, cs, htext, hvalue, ⟨rfl, hscan⟩ | ⟨hdigit, hscan⟩⟩ := h
  · have hsign : tokensWithin (k + 1) ('-' :: (cs ++ rest)) =
        numberToken (tokensWithin k) (scanNumber true (cs ++ rest)) := rfl
    rw [htext, List.cons_append, hsign, scanNumber_append hscan hrest, numberToken, hvalue]
  · have happend := scanNumber_append hscan hrest
    rw [List.cons_append] at happend
    rw [htext, List.cons_append, tokensWithin_digit hdigit, happend, numberToken, hvalue]

/-! ## Texts that are cut into tokens -/

/-- A text that is cut into certain tokens, whatever follows it. -/
def Spells (cs : List Char) (ts : List Token) : Prop :=
  ∀ n rest, Ends rest → (cs ++ rest).length < n →
    ∃ m, rest.length < m ∧ tokensWithin n (cs ++ rest) = ts ++ tokensWithin m rest

/-- The token that a character is on its own. -/
def symbol? : Char → Option Token
  | '[' => some .openList
  | ']' => some .closeList
  | '{' => some .openObject
  | '}' => some .closeObject
  | ':' => some .colon
  | ',' => some .comma
  | _ => none

theorem tokensWithin_symbol {c : Char} {t : Token} (h : symbol? c = some t) (n : Nat) (cs : List Char) :
    tokensWithin (n + 1) (c :: cs) = t :: tokensWithin n cs := by
  unfold symbol? at h
  split at h <;> cases h <;> rfl

namespace Spells

variable {a b : List Char} {ts us : List Token}

theorem nil : Spells [] [] := fun n _ _ hn => ⟨n, hn, rfl⟩

theorem append (ha : Spells a ts) (hb : Spells b us) (h : Ends b) : Spells (a ++ b) (ts ++ us) := by
  intro n rest hrest hn
  have hends : Ends (b ++ rest) := by
    cases b with
    | nil => exact hrest
    | cons c b => exact h
  rw [List.append_assoc] at hn ⊢
  obtain ⟨m, hm, hfirst⟩ := ha n (b ++ rest) hends hn
  obtain ⟨k, hk, hsecond⟩ := hb m rest hrest hm
  exact ⟨k, hk, by rw [hfirst, hsecond, List.append_assoc]⟩

/-- One character that is a token or a space, before any text. -/
theorem step {c : Char} (us : List Token)
    (hc : ∀ n cs, tokensWithin (n + 1) (c :: cs) = us ++ tokensWithin n cs) (hb : Spells b ts) :
    Spells (c :: b) (us ++ ts) := by
  intro n rest hrest hn
  cases n with
  | zero => exact absurd hn (Nat.not_lt_zero _)
  | succ n =>
    obtain ⟨m, hm, htokens⟩ := hb n rest hrest (Nat.lt_of_succ_lt_succ hn)
    exact ⟨m, hm, by rw [List.cons_append, hc, htokens, List.append_assoc]⟩

theorem space {c : Char} (hc : isSpace c = true) (hb : Spells b ts) : Spells (c :: b) ts :=
  step [] (fun n cs => by rw [tokensWithin, if_pos hc, List.nil_append]) hb

theorem spaces (hb : Spells b ts) (k : Nat) : Spells (List.replicate k ' ' ++ b) ts := by
  induction k with
  | zero => exact hb
  | succ k ih =>
    rw [List.replicate_succ, List.cons_append]
    exact ih.space rfl

theorem onNewLine (hb : Spells b ts) (level : Nat) : Spells (Json.newLine level ++ b) ts := by
  rw [Json.newLine, List.cons_append]
  exact (hb.spaces _).space rfl

theorem symbol {c : Char} {t : Token} (h : symbol? c = some t) (hb : Spells b ts) :
    Spells (c :: b) (t :: ts) :=
  step [t] (fun n cs => tokensWithin_symbol h n cs) hb

theorem string (s : String) : Spells (stringChars s) [.text (.ok s)] := by
  intro n rest _ hn
  cases n with
  | zero => exact absurd hn (Nat.not_lt_zero _)
  | succ n =>
    refine ⟨n, ?_, ?_⟩
    · simp [stringChars] at hn
      omega
    · have hscan := scanText_escaped s.toList rest
      rw [stringChars, List.cons_append, List.cons_append, List.append_assoc, tokensWithin]
      simp [isSpace, hscan, Except.map]

theorem number {v : Numeral} (h : IsSpelled v) : Spells v.text.toList [.number (.ok v)] := by
  intro n rest hrest hn
  cases n with
  | zero => exact absurd hn (Nat.not_lt_zero _)
  | succ n =>
    obtain ⟨_, c, cs, htext, -⟩ := id h
    refine ⟨n, ?_, tokensWithin_number h hrest n⟩
    rw [htext, List.length_append, List.length_cons] at hn
    omega

theorem null : Spells ['n', 'u', 'l', 'l'] [.null] := by
  intro n rest _ hn
  cases n with
  | zero => exact absurd hn (Nat.not_lt_zero _)
  | succ n => exact ⟨n, by simp at hn; omega, rfl⟩

theorem bool (value : Bool) : Spells (chars (.bool value)) [.bool value] := by
  intro n rest _ hn
  cases n with
  | zero => exact absurd hn (Nat.not_lt_zero _)
  | succ n =>
    cases value with
    | false => exact ⟨n, by simp [chars] at hn; omega, rfl⟩
    | true => exact ⟨n, by simp [chars] at hn; omega, rfl⟩

end Spells

/-! ## Values -/

mutual

/-- The tokens of a written value. -/
def tokensOf : Json → List Token
  | .null => [.null]
  | .bool b => [.bool b]
  | .number n => [.number (.ok n)]
  | .string s => [.text (.ok s)]
  | .array [] => [.openList, .closeList]
  | .array (v :: vs) => .openList :: (tokensOf v ++ itemTokens vs)
  | .object [] => [.openObject, .closeObject]
  | .object ((k, v) :: fs) => .openObject :: .text (.ok k) :: .colon :: (tokensOf v ++ fieldTokens fs)

/-- The tokens of the items after the first one, with the closing bracket. -/
def itemTokens : List Json → List Token
  | [] => [.closeList]
  | v :: vs => .comma :: (tokensOf v ++ itemTokens vs)

def fieldTokens : List (String × Json) → List Token
  | [] => [.closeObject]
  | (k, v) :: fs => .comma :: .text (.ok k) :: .colon :: (tokensOf v ++ fieldTokens fs)

end

theorem ends_newLine (level : Nat) (cs : List Char) : Ends (newLine level ++ cs) := by
  rintro c hc
  obtain rfl := Option.some.inj hc
  decide

theorem ends_symbol {c : Char} {t : Token} (h : symbol? c = some t) (cs : List Char) : Ends (c :: cs) := by
  rintro d hd
  obtain rfl := Option.some.inj hd
  unfold symbol? at h
  split at h <;> cases h <;> decide

theorem ends_spreadItems (level : Nat) (vs : List Json) : Ends (spreadItems level vs) := by
  cases vs with
  | nil => exact ends_newLine level _
  | cons v vs =>
    rw [spreadItems, List.cons_append, List.cons_append]
    exact ends_symbol rfl _

theorem ends_spreadFields (level : Nat) (fs : List (String × Json)) : Ends (spreadFields level fs) := by
  cases fs with
  | nil => exact ends_newLine level _
  | cons f fs =>
    rw [spreadFields, List.cons_append, List.cons_append, List.cons_append]
    exact ends_symbol rfl _

namespace Spells

variable {v : Json} {level : Nat} {b : List Char} {ts : List Token}

/-- A value on a line of its own. -/
theorem item (h : Spells (spreadChars (level + 1) v) (tokensOf v)) (hb : Spells b ts) (hends : Ends b) :
    Spells (newLine (level + 1) ++ spreadChars (level + 1) v ++ b) (tokensOf v ++ ts) := by
  rw [List.append_assoc]
  exact (h.append hb hends).onNewLine _

/-- A value on a line of its own, after its name. -/
theorem field (h : Spells (spreadChars (level + 1) v) (tokensOf v)) (hb : Spells b ts) (hends : Ends b)
    (name : String) :
    Spells (newLine (level + 1) ++ stringChars name ++ ':' :: ' ' :: spreadChars (level + 1) v ++ b)
      (.text (.ok name) :: .colon :: (tokensOf v ++ ts)) := by
  have hvalue := ((h.append hb hends).space (c := ' ') rfl).symbol (c := ':') rfl
  have hfield := (string name).append hvalue (ends_symbol rfl _)
  simpa using hfield.onNewLine (level + 1)

theorem items {vs : List Json} (h : ∀ v ∈ vs, Spells (spreadChars (level + 1) v) (tokensOf v)) :
    Spells (spreadItems level vs) (itemTokens vs) := by
  induction vs with
  | nil => exact (Spells.nil.symbol rfl).onNewLine level
  | cons v vs ih =>
    have hrest := ih fun v hv => h v (List.mem_cons_of_mem _ hv)
    exact ((h v List.mem_cons_self).item hrest (ends_spreadItems level vs)).symbol rfl

theorem fields {fs : List (String × Json)}
    (h : ∀ f ∈ fs, Spells (spreadChars (level + 1) f.2) (tokensOf f.2)) :
    Spells (spreadFields level fs) (fieldTokens fs) := by
  induction fs with
  | nil => exact (Spells.nil.symbol rfl).onNewLine level
  | cons f fs ih =>
    have hrest := ih fun f hf => h f (List.mem_cons_of_mem _ hf)
    exact ((h f List.mem_cons_self).field hrest (ends_spreadFields level fs) f.1).symbol rfl

end Spells

theorem spells_spreadChars {v : Json} (h : v.AllNumbers IsSpelled) (level : Nat) :
    Spells (spreadChars level v) (tokensOf v) := by
  induction h generalizing level with
  | null => exact .null
  | bool b => exact .bool b
  | number h => exact .number h
  | string s => exact .string s
  | @array vs h ih =>
    cases vs with
    | nil => exact (Spells.nil.symbol rfl).symbol rfl
    | cons v vs =>
      have hitems : Spells (spreadItems level vs) (itemTokens vs) :=
        .items fun v hv => ih v (List.mem_cons_of_mem _ hv) _
      exact ((ih v List.mem_cons_self _).item hitems (ends_spreadItems level vs)).symbol rfl
  | @object fs h ih =>
    cases fs with
    | nil => exact (Spells.nil.symbol rfl).symbol rfl
    | cons f fs =>
      have hfields : Spells (spreadFields level fs) (fieldTokens fs) :=
        .fields fun f hf => ih f (List.mem_cons_of_mem _ hf) _
      exact ((ih f List.mem_cons_self _).field hfields (ends_spreadFields level fs) f.1).symbol rfl

end Dashboard.Json
