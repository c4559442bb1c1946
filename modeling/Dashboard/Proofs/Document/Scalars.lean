import Dashboard.Proofs.Json.Spelling
import Dashboard.Proofs.Rebuild.Properties
/-!
# Scalars that are read as text

A reader of the document tells a scalar by its spelling: between quotes it is a text, behind an exclamation
mark it carries a tag, and without either it may be null, a truth value, a number or a text. A string is
written so that it is read back as itself, unless it starts with the tag of code or is spelled as a number
with hexadecimal digits.
-/

namespace Dashboard.Yaml

open Text

inductive Reading where
  | null
  | bool
  | number
  | text (value : String)
  | tagged
deriving DecidableEq

/-- Digits of a radix behind a zero and the mark of the radix. -/
def isRadix (mark : Char) (radix : Nat) : List Char → Bool
  | '0' :: m :: ds => m == mark && !ds.isEmpty && ds.all fun c => (Json.hexValue? c).any (· < radix)
  | _ => false

def isUnsigned (cs : List Char) : Bool :=
  (Number.Decimal.read? cs).isSome || [".inf", ".Inf", ".INF"].contains (String.ofList cs)

def isNumeral : List Char → Bool
  | '+' :: cs => isUnsigned cs
  | '-' :: cs => isUnsigned cs
  | cs => isUnsigned cs || isRadix 'x' 16 cs || isRadix 'o' 8 cs ||
    [".nan", ".NaN", ".NAN"].contains (String.ofList cs)

def resolve (cs : List Char) : Reading :=
  let word := lower (String.ofList cs)
  if ["~", "null"].contains word then .null
  else if ["true", "false", "yes", "no", "on", "off"].contains word then .bool
  else if isNumeral cs then .number
  else .text (String.ofList cs)

/-- The characters that begin something else than a scalar without quotes. -/
def indicators : List Char := "-?:,[]#&*!|>'%@`\"\x7b\x7d".toList

def startsBare : List Char → Bool
  | [] => false
  | c :: cs =>
    if ['-', '?', ':'].contains c then cs.head?.any fun d => !Json.isSpace d
    else !indicators.contains c && !Json.isSpace c

/-- A colon before a blank ends a key, and a number sign after one begins a comment. -/
def continuesBare : List Char → Bool
  | [] => true
  | [c] => c != ':' && !Json.isSpace c
  | c :: d :: cs =>
    c != '\n' && c != '\r' && !(c == ':' && Json.isSpace d) && !(Json.isSpace c && d == '#') &&
      continuesBare (d :: cs)

def read? : List Char → Option Reading
  | '"' :: cs =>
    match Json.scanText cs with
    | .closed (.ok value) [] => some (.text (String.ofList value))
    | _ => none
  | '!' :: _ => some .tagged
  | cs => if startsBare cs && continuesBare cs then some (resolve cs) else none

/-- An entry of one line whose scalar, bare or between quotes, is read as the text. -/
def IsTextEntry (indent : Nat) (key text : String) (entry : List String) : Prop :=
  ∃ written, entry = [spaces indent ++ key ++ ": " ++ written] ∧ OneLine written ∧
    (written = text ∨ written = Json.quote text) ∧ read? written.toList = some (.text text)

theorem read?_quote (s : String) : read? (Json.quote s).toList = some (.text s) := by
  rw [Json.quote, String.toList_ofList, Json.stringChars, List.cons_append, read?, Json.scanText_escaped]
  exact congrArg (fun t => some (Reading.text t)) String.ofList_toList

/-! ## Scalars without quotes -/

def breaks : List Char := [':', ' ', '\n', '\t', '\r']

theorem isSpace_of_not_mem {c : Char} (h : c ∉ breaks) : Json.isSpace c = false := by
  simp only [breaks, List.mem_cons, List.not_mem_nil, or_false, not_or] at h
  simp [Json.isSpace, h]

theorem continuesBare_of_forall {cs : List Char} (h : ∀ c ∈ cs, c ∉ breaks) : continuesBare cs = true := by
  induction cs with
  | nil => rfl
  | cons c cs ih =>
    have hc := h c List.mem_cons_self
    have hspace := isSpace_of_not_mem hc
    simp only [breaks, List.mem_cons, List.not_mem_nil, or_false, not_or] at hc
    cases cs with
    | nil => simp [continuesBare, hc, hspace]
    | cons d cs =>
      have hrest := ih fun c' hc' => h c' (List.mem_cons_of_mem c hc')
      simp [continuesBare, hc, hspace, hrest]

theorem read?_bare {c : Char} {cs : List Char} (hc : c ∉ indicators) (h : ∀ d ∈ c :: cs, d ∉ breaks) :
    read? (c :: cs) = some (resolve (c :: cs)) := by
  have hmark : ['-', '?', ':'].contains c = false :=
    Bool.eq_false_iff.mpr fun hmem => hc ((by decide : ['-', '?', ':'] ⊆ indicators) (List.contains_iff_mem.mp hmem))
  have hindicator : indicators.contains c = false := by simpa using hc
  have hstarts : startsBare (c :: cs) = true := by
    rw [startsBare, hmark, hindicator, isSpace_of_not_mem (h c List.mem_cons_self)]
    rfl
  rw [read?]
  · rw [hstarts, continuesBare_of_forall h]
    rfl
  · exact fun _ he => hc ((List.cons.inj he).1 ▸ by decide)
  · exact fun _ he => hc ((List.cons.inj he).1 ▸ by decide)

/-- What is made of characters of other kinds has neither an indicator in front nor a break. -/
theorem read?_of_chars {p q : Char → Bool} {c : Char} {cs : List Char} (hc : p c = true) (hcs : ∀ d ∈ cs, q d = true)
    (hp : (indicators ++ breaks).any p = false) (hq : breaks.any q = false) :
    read? (c :: cs) = some (resolve (c :: cs)) := by
  have hc' : c ∉ indicators ++ breaks := fun h => Bool.false_ne_true (hp.symm.trans (List.any_eq_true.mpr ⟨c, h, hc⟩))
  refine read?_bare (fun h => hc' (List.mem_append_left _ h)) (List.forall_mem_cons.mpr ⟨?_, fun d hd h => ?_⟩)
  · exact fun h => hc' (List.mem_append_right _ h)
  · exact Bool.false_ne_true (hq.symm.trans (List.any_eq_true.mpr ⟨d, h, hcs d hd⟩))

/-! ## Digits of a radix -/

theorem hexValue?_lt {c : Char} {n : Nat} (h : Json.hexValue? c = some n) : n < 16 := by
  unfold Json.hexValue? at h
  grind

theorem mem_of_isRadix {mark : Char} {radix : Nat} {cs : List Char} (h : isRadix mark radix cs = true) :
    cs.head? = some '0' ∧ mark ∈ cs := by
  unfold isRadix at h
  split at h
  · simp only [Bool.and_eq_true, beq_iff_eq] at h
    exact ⟨rfl, h.1.1 ▸ List.mem_cons_of_mem _ List.mem_cons_self⟩
  · exact nomatch h

theorem isRadix_of_isHexNumber {cs : List Char} (h : isHexNumber cs = true) : isRadix 'x' 16 cs = true := by
  obtain ⟨ds, rfl, hne, hdigits⟩ := exists_of_isHexNumber h
  refine Bool.and_eq_true_iff.mpr ⟨by simp [hne], List.all_eq_true.mpr fun c hc => ?_⟩
  obtain ⟨n, hn⟩ := Option.isSome_iff_exists.mp (hdigits c hc)
  rw [hn]
  exact decide_eq_true (hexValue?_lt hn)

/-! ## Numbers and what is none -/

/-- Digits that are followed by neither a point nor an exponent are no decimal. -/
theorem read?_eq_none {ds cs : List Char} {c : Char} (hdigits : ∀ d ∈ ds, d.isDigit = true)
    (hdigit : c.isDigit = false) (hpoint : c ≠ '.') (hexponent : ds = [] ∨ c ≠ 'e' ∧ c ≠ 'E') :
    Number.Decimal.read? (ds ++ c :: cs) = none := by
  have hstop : ¬ c.isDigit = true := by simp [hdigit]
  have hcons : ∀ r, c :: cs ≠ '.' :: r := fun r he => hpoint (List.cons.inj he).1
  rw [Number.Decimal.read?, List.takeWhile_append_of_pos hdigits, List.dropWhile_append_of_pos hdigits,
    List.takeWhile_cons_of_neg hstop, List.dropWhile_cons_of_neg hstop, List.append_nil]
  simp only
  rcases hexponent with rfl | ⟨he, hE⟩
  · rfl
  · simp [he, hE]

theorem contains_eq_false_of_head {words : List String} {c : Char} {cs : List Char}
    (h : ∀ w ∈ words, w.toList.head? ≠ some c) : words.contains (String.ofList (c :: cs)) = false := by
  refine Bool.eq_false_iff.mpr fun hmem => ?_
  refine h _ (List.contains_iff_mem.mp hmem) ?_
  rw [String.toList_ofList, List.head?_cons]

theorem isNumeral_eq_false {c : Char} {cs : List Char} (hmark : c ∉ ['+', '-', '.'])
    (hdecimal : Number.Decimal.read? (c :: cs) = none) (hradix : ∀ mark ∈ ['x', 'o'], c = '0' → mark ∉ c :: cs) :
    isNumeral (c :: cs) = false := by
  obtain ⟨hplus, hminus, hpoint⟩ : c ≠ '+' ∧ c ≠ '-' ∧ '.' ≠ c := by grind
  have hnone : ∀ mark ∈ ['x', 'o'], ∀ radix, isRadix mark radix (c :: cs) = false := fun mark hmem radix =>
    Bool.eq_false_iff.mpr fun h => hradix mark hmem (Option.some.inj (mem_of_isRadix h).1) (mem_of_isRadix h).2
  have hinfinite : [".inf", ".Inf", ".INF"].contains (String.ofList (c :: cs)) = false :=
    contains_eq_false_of_head (by simpa using hpoint)
  have hnan : [".nan", ".NaN", ".NAN"].contains (String.ofList (c :: cs)) = false :=
    contains_eq_false_of_head (by simpa using hpoint)
  rw [isNumeral, isUnsigned, hdecimal, hnone 'x' (by decide), hnone 'o' (by decide), hinfinite, hnan]
  · rfl
  · exact fun _ he => hplus (List.cons.inj he).1
  · exact fun _ he => hminus (List.cons.inj he).1

theorem isNumeral_word {c : Char} {cs : List Char} (h : isWordStart c = true) : isNumeral (c :: cs) = false := by
  have hne : ∀ d, isWordStart d = false → c ≠ d := fun d hd he => Bool.false_ne_true (hd.symm.trans (he ▸ h))
  have hdigit : c.isDigit = false := by
    have hletter := (toNat_of_isWordStart h).1
    refine Bool.eq_false_iff.mpr fun hdigit => ?_
    have hhigh : c.toNat ≤ 57 := (Char.isDigit_iff_toNat.mp hdigit).2
    omega
  have hdecimal : Number.Decimal.read? ([] ++ c :: cs) = none :=
    read?_eq_none (List.forall_mem_nil _) hdigit (hne '.' (by decide)) (.inl rfl)
  refine isNumeral_eq_false ?_ hdecimal ?_
  · simp [hne '+' (by decide), hne '-' (by decide), hne '.' (by decide)]
  · exact fun _ _ he => absurd he (hne '0' (by decide))

theorem isNumeral_percentage {ds : List Char} (hdigits : ∀ c ∈ ds, c.isDigit = true) :
    isNumeral (ds ++ ['%']) = false := by
  have hdecimal : Number.Decimal.read? (ds ++ ['%']) = none :=
    read?_eq_none hdigits (by decide) (by decide) (.inr (by decide))
  have hmem : ∀ c, c.isDigit = false → c ≠ '%' → c ∉ ds ++ ['%'] := by
    intro c hdigit hpercent hc
    rcases List.mem_append.mp hc with hc | hc
    · exact Bool.false_ne_true (hdigit.symm.trans (hdigits c hc))
    · exact hpercent (List.mem_singleton.mp hc)
  cases hcs : ds ++ ['%'] with
  | nil => exact absurd hcs (by simp)
  | cons c cs =>
    rw [hcs] at hdecimal hmem
    have hne : ∀ d, d.isDigit = false → d ≠ '%' → c ≠ d := fun d hdigit hpercent he =>
      hmem d hdigit hpercent (he ▸ List.mem_cons_self)
    refine isNumeral_eq_false ?_ hdecimal fun mark hmark _ => ?_
    · simp [hne '+' (by decide) (by decide), hne '-' (by decide) (by decide), hne '.' (by decide) (by decide)]
    · simp only [List.mem_cons, List.not_mem_nil, or_false] at hmark
      rcases hmark with rfl | rfl <;> exact hmem _ (by decide) (by decide)

/-! ## Strings that are written as they are -/

theorem resolve_eq_text {s : String} (hreserved : isReserved s = false) (hnumeral : isNumeral s.toList = false) :
    resolve s.toList = .text s := by
  have hwords : lower s ∉ ["true", "false", "yes", "no", "on", "off", "null", "~"] := by
    simpa [isReserved] using hreserved
  have hnull : ["~", "null"].contains (lower s) = false := by
    refine Bool.eq_false_iff.mpr fun h => hwords ?_
    exact (by decide : ["~", "null"] ⊆ _) (List.contains_iff_mem.mp h)
  have hbool : ["true", "false", "yes", "no", "on", "off"].contains (lower s) = false := by
    refine Bool.eq_false_iff.mpr fun h => hwords ?_
    exact (by decide : ["true", "false", "yes", "no", "on", "off"] ⊆ _) (List.contains_iff_mem.mp h)
  simp only [resolve, String.ofList_toList, hnull, hbool, hnumeral, Bool.false_eq_true, if_false]

theorem lower_contains_eq_false {words : List String} {cs : List Char} (h : ∀ w ∈ words, w.toList.head? ≠ some '0') :
    words.contains (lower (String.ofList ('0' :: cs))) = false := by
  rw [lower, String.toList_ofList]
  exact contains_eq_false_of_head h

theorem isReserved_of_isHexNumber {s : String} (h : isHexNumber s.toList = true) : isReserved s = false := by
  obtain ⟨ds, hs, -⟩ := exists_of_isHexNumber h
  rw [isReserved, ← String.ofList_toList (s := s), hs]
  exact lower_contains_eq_false (by decide)

theorem read?_of_isHexNumber {cs : List Char} (h : isHexNumber cs = true) : read? cs = some .number := by
  obtain ⟨ds, rfl, -, hdigits⟩ := exists_of_isHexNumber h
  have hnumeral : isNumeral ('0' :: 'x' :: ds) = true := by
    rw [isNumeral, isRadix_of_isHexNumber h, Bool.or_true, Bool.true_or, Bool.true_or]
    · exact fun _ he => absurd (List.cons.inj he).1 (by decide)
    · exact fun _ he => absurd (List.cons.inj he).1 (by decide)
  have hresolve : resolve ('0' :: 'x' :: ds) = .number := by
    rw [resolve, lower_contains_eq_false (by decide), lower_contains_eq_false (by decide), hnumeral]
    rfl
  have hrest : ∀ d ∈ 'x' :: ds, (isHexDigit d || d == 'x') = true :=
    List.forall_mem_cons.mpr ⟨by decide, fun d hd => Bool.or_eq_true_iff.mpr (.inl (hdigits d hd))⟩
  rw [← hresolve]
  exact read?_of_chars (p := Char.isDigit) (by decide) hrest (by decide) (by decide)

theorem read?_of_isPlain {s : String} (h : isPlain s = true) (hhex : isHexNumber s.toList = false) :
    read? s.toList = some (.text s) := by
  simp only [isPlain, hhex, Bool.and_eq_true, Bool.or_eq_true, Bool.not_eq_true', Bool.false_eq_true, false_or] at h
  obtain ⟨⟨-, hreserved⟩, hpercentage | hword⟩ := h
  · obtain ⟨c, ds, hs, hdigits⟩ := exists_of_isPercentage hpercentage
    have hrest : ∀ d ∈ ds ++ ['%'], (d.isDigit || d == '%') = true := by
      simpa [or_imp, forall_and] using fun d hd => Or.inl (hdigits d (List.mem_cons_of_mem c hd))
    rw [← resolve_eq_text hreserved (hs ▸ isNumeral_percentage hdigits), hs]
    exact read?_of_chars (hdigits c List.mem_cons_self) hrest (by decide) (by decide)
  · unfold isPlainWord at hword
    split at hword
    · exact nomatch hword
    · rename_i c cs hs
      obtain ⟨hc, hcs⟩ := Bool.and_eq_true_iff.mp hword
      rw [← resolve_eq_text hreserved (hs ▸ isNumeral_word hc), hs]
      exact read?_of_chars hc (List.all_eq_true.mp hcs) (by decide) (by decide)

/-! ## Entries -/

variable {indent : Nat} {key s : String}

/-- Whether a string is spelled as something else than a text, so that it would be taken for that. -/
def IsMistaken (s : String) : Prop := startsWith "!lambda" s = true ∨ isHexNumber s.toList = true

theorem read?_stringText (h : ¬ IsMistaken s) : read? (stringText s).toList = some (.text s) := by
  obtain ⟨htag, hhex⟩ := not_or.mp h
  rw [stringText, Bool.eq_false_iff.mpr htag, Bool.false_or]
  split
  · exact read?_of_isPlain ‹_› (Bool.eq_false_iff.mpr hhex)
  · exact read?_quote s

theorem stringText_of_isHexNumber (h : isHexNumber s.toList = true) : stringText s = s := by
  have hne : s.isEmpty = false := by
    obtain ⟨ds, hs, -⟩ := exists_of_isHexNumber h
    exact Bool.eq_false_iff.mpr fun hempty => by simp [String.isEmpty_iff.mp hempty] at hs
  have hplain : isPlain s = true := by rw [isPlain, hne, isReserved_of_isHexNumber h, h]; rfl
  rw [stringText, hplain, Bool.or_true, if_pos rfl]

theorem entryLines_string (h : startsWith "!lambda" s = false) :
    entryLines indent key (.string s) = [spaces indent ++ key ++ ": " ++ stringText s] := by
  rw [entryLines, isLambdaBlock, h]
  rfl

theorem exists_of_startsWith (h : startsWith "!lambda" s = true) : ∃ cs, s.toList = '!' :: cs := by
  obtain ⟨cs, hcs⟩ := List.isPrefixOf_iff_prefix.mp h
  exact ⟨"lambda".toList ++ cs, hcs.symm⟩

/-- The tag stands on the line of the key, whether or not other lines follow. -/
theorem exists_entryLines_of_startsWith (indent : Nat) (key : String) (h : startsWith "!lambda" s = true) :
    ∃ written rest, entryLines indent key (.string s) = (spaces indent ++ key ++ ": " ++ written) :: rest ∧
      read? written.toList = some .tagged := by
  obtain ⟨cs, hs⟩ := exists_of_startsWith h
  -- with more lines the text becomes a block, whose first line still starts with the tag
  cases hblock : isLambdaBlock s with
  | false =>
    have hentry : entryLines indent key (.string s) = [spaces indent ++ key ++ ": " ++ s] := by
      rw [entryLines, hblock, stringText, h]
      rfl
    exact ⟨s, [], hentry, by rw [hs]; rfl⟩
  | true =>
    obtain ⟨l, ls, hlines⟩ : ∃ l ls, lineChars ('!' :: cs) = ('!' :: l) :: ls := by
      rw [lineChars] <;> cases lineChars cs <;> simp
    have hentry : entryLines indent key (.string s) = lambdaLines indent key s := by
      rw [entryLines, hblock]
      rfl
    rw [hentry, lambdaLines, lines, hs, hlines]
    exact ⟨String.ofList ('!' :: l), _, rfl, by rw [String.toList_ofList]; rfl⟩

/-- A string is written as an entry that is read as the string, unless it would be mistaken. -/
theorem isTextEntry_entryLines_iff :
    IsTextEntry indent key s (entryLines indent key (.string s)) ↔ ¬ IsMistaken s := by
  constructor
  · rintro ⟨written, hentry, -, -, hread⟩ (htag | hhex)
    · obtain ⟨tagged, rest, hentry', htagged⟩ := exists_entryLines_of_startsWith indent key htag
      obtain rfl : tagged = written := by simpa using (List.cons.inj (hentry'.symm.trans hentry)).1
      cases htagged.symm.trans hread
    · have htag : startsWith "!lambda" s = false := by
        obtain ⟨ds, hs, -⟩ := exists_of_isHexNumber hhex
        rw [startsWith, hs]
        rfl
      rw [entryLines_string htag, stringText_of_isHexNumber hhex] at hentry
      obtain rfl : s = written := by simpa using (List.cons.inj hentry).1
      cases (read?_of_isHexNumber hhex).symm.trans hread
  · intro h
    have htag : startsWith "!lambda" s = false := Bool.eq_false_iff.mpr fun htag => h (.inl htag)
    refine ⟨stringText s, entryLines_string htag, ?_, ?_, read?_stringText h⟩
    · exact KeepsLine.oneLine_stringText fun h => absurd (htag.symm.trans h) Bool.false_ne_true
    · unfold stringText
      split
      · exact .inl rfl
      · exact .inr rfl

end Dashboard.Yaml
