import Dashboard.Rebuild.Region
import Dashboard.Text.CLiteral
import Dashboard.Number.Format
import Dashboard.Text.Ascii
/-!
# Texts of one line

A text on one line has no line feed. What is written line by line is read back line by line, except
that a line loses the carriage return at its end. The scanner of regions then widens the tabs of a
line; a line without tabs and carriage returns is scanned as it stands.
-/

namespace Dashboard.Text

open Number

/-- A line as it is read: the line feed after it takes a carriage return along. -/
def withoutReturn (cs : List Char) : List Char := if cs.getLast? = some '\r' then cs.dropLast else cs

theorem lineChars_append_return {line : List Char} (h : '\n' ∉ line) (rest : List Char) :
    lineChars (line ++ '\r' :: '\n' :: rest) = line :: lineChars rest := by
  induction line with
  | nil => rfl
  | cons c cs ih =>
    have hc : c ≠ '\n' := fun he => h (he ▸ List.mem_cons_self)
    have hcs : '\n' ∉ cs := fun hm => h (List.mem_cons_of_mem c hm)
    have hnext : ∀ cs', c = '\r' → cs ++ '\r' :: '\n' :: rest = '\n' :: cs' → False := by
      intro cs' _ he
      cases cs with
      | nil => exact absurd (List.cons.inj he).1 (by decide)
      | cons d ds => exact hcs ((List.cons.inj he).1 ▸ List.mem_cons_self)
    rw [List.cons_append, lineChars]
    · rw [ih hcs]
    · exact hc
    · exact hnext

theorem lineChars_append_feed {line : List Char} (h : '\n' ∉ line) (rest : List Char) :
    lineChars (line ++ '\n' :: rest) = withoutReturn line :: lineChars rest := by
  unfold withoutReturn
  split
  · rename_i hr
    obtain ⟨front, rfl⟩ := List.getLast?_eq_some_iff.mp hr
    rw [List.dropLast_concat, List.append_assoc]
    exact lineChars_append_return (fun hm => h (List.mem_append_left _ hm)) rest
  · rename_i hr
    exact lineChars_append h hr rest

theorem toList_unlines (ls : List String) :
    (unlines ls).toList = ls.flatMap fun l => l.toList ++ ['\n'] := by
  simp [unlines, String.toList_join, List.flatMap_map]

/-- A text that stays on its line. -/
def OneLine (s : String) : Prop := '\n' ∉ s.toList

instance (s : String) : Decidable (OneLine s) := inferInstanceAs (Decidable ('\n' ∉ s.toList))

theorem lines_unlines {ls : List String} (h : ∀ l ∈ ls, OneLine l) :
    lines (unlines ls) = ls.map fun l => String.ofList (withoutReturn l.toList) := by
  rw [lines, toList_unlines]
  induction ls with
  | nil => rfl
  | cons l ls ih =>
    have hl : '\n' ∉ l.toList := h l List.mem_cons_self
    rw [List.flatMap_cons, List.append_assoc, List.singleton_append, lineChars_append_feed hl,
      List.map_cons, List.map_cons, ih fun l' hl' => h l' (List.mem_cons_of_mem l hl')]

/-! ## What stays on one line -/

theorem mem_literalChar {c d : Char} (h : c ∈ literalChar d) :
    c ∈ ['\\', '"', 'n', 'r'] ∨ c = d ∧ d ≠ '\n' ∧ d ≠ '\r' := by
  unfold literalChar at h
  split at h
  · exact .inl (by grind)
  · split at h
    · exact .inl (by grind)
    · split at h
      · exact .inl (by grind)
      · split at h
        · exact .inl (by grind)
        · exact .inr ⟨List.mem_singleton.mp h, ‹_›, ‹_›⟩

/-- Beside the characters of its escapes, the body of a literal holds those of its text, but for the
two line break characters. -/
theorem not_mem_literalBody {c : Char} (hc : c ∉ ['\\', '"', 'n', 'r']) {cs : List Char}
    (h : c = '\n' ∨ c = '\r' ∨ c ∉ cs) : c ∉ literalBody cs := by
  intro hm
  obtain ⟨d, hd, hcd⟩ := List.mem_flatMap.mp hm
  rcases mem_literalChar hcd with hescape | ⟨rfl, hfeed, hreturn⟩
  · exact hc hescape
  · rcases h with h | h | h
    · exact hfeed h
    · exact hreturn h
    · exact h hd

namespace OneLine

variable {s t : String}

theorem append (hs : OneLine s) (ht : OneLine t) : OneLine (s ++ t) := by
  simp only [OneLine, String.toList_append, List.mem_append, not_or]
  exact ⟨hs, ht⟩

theorem ofList {cs : List Char} (h : '\n' ∉ cs) : OneLine (String.ofList cs) := by
  rwa [OneLine, String.toList_ofList]

theorem ofMap {f : Char → Char} (h : ∀ c, f c ≠ '\n') (cs : List Char) :
    OneLine (String.ofList (cs.map f)) :=
  .ofList fun hm => by
    obtain ⟨c, -, hc⟩ := List.mem_map.mp hm
    exact h c hc

theorem spaces (n : Nat) : OneLine (spaces n) :=
  .ofList fun h => absurd (List.eq_of_mem_replicate h) (by decide)

theorem joined {separator : String} {parts : List String} (hs : OneLine separator)
    (h : ∀ p ∈ parts, OneLine p) : OneLine (joined separator parts) := by
  induction parts with
  | nil => simp [OneLine, Text.joined]
  | cons p parts ih =>
    cases parts with
    | nil => simpa [Text.joined] using h p List.mem_cons_self
    | cons q parts =>
      rw [Text.joined, String.intercalate_cons_cons]
      exact ((h p List.mem_cons_self).append hs).append
        (ih fun r hr => h r (List.mem_cons_of_mem p hr))

theorem literal (s : String) : OneLine (literal s) := by
  refine .ofList fun h => ?_
  simp only [List.cons_append, List.mem_cons, List.mem_append, List.not_mem_nil, or_false] at h
  rcases h with h | h | h
  · exact absurd h (by decide)
  · exact not_mem_literalBody (by decide) (.inl rfl) h
  · exact absurd h (by decide)

end OneLine

theorem not_mem_digitsOf {c : Char} (hc : c.isDigit = false) (n : Nat) : c ∉ digitsOf n := fun h =>
  absurd (Nat.isDigit_of_mem_toDigits (by decide) (by decide) h) (by simp [hc])

theorem isAlphanum_toLower {c : Char} (h : c.isAlphanum = true) : c.toLower.isAlphanum = true := by
  unfold Char.toLower
  split
  · rename_i hupper
    have hlow : 65 ≤ c.val.toNat := hupper.1
    have hhigh : c.val.toNat ≤ 90 := hupper.2
    have h32 : ('a'.val - 'A'.val).toNat = 32 := rfl
    delta Char.isAlphanum Char.isAlpha Char.isLower
    simp only [Bool.or_eq_true, Bool.and_eq_true, decide_eq_true_eq, UInt32.le_iff_toNat_le,
      UInt32.toNat_add, h32]
    refine .inl (.inr ⟨?_, ?_⟩)
    · change 97 ≤ _
      omega
    · change _ ≤ 122
      omega
  · exact h

theorem newline_ne_toLower {c : Char} (h : c.isAlphanum = true) : c.toLower ≠ '\n' := fun he =>
  absurd (isAlphanum_toLower h) (by rw [he]; decide)

theorem oneLine_natText (n : Nat) : OneLine (natText n) := .ofList (not_mem_digitsOf (by decide) n)

theorem oneLine_intText (i : Int) : OneLine (intText i) := by
  unfold intText
  split
  · exact .ofList fun h => by
      rcases List.mem_cons.mp h with h | h
      · exact absurd h (by decide)
      · exact not_mem_digitsOf (by decide) _ h
  · exact .ofList (not_mem_digitsOf (by decide) _)

end Dashboard.Text

namespace Dashboard.Region

open Dashboard.Text Dashboard.Number

/-- A written line as the scanner sees it. -/
def scanned (line : String) : String := expandTabs (String.ofList (withoutReturn line.toList))

theorem withoutReturn_append {start : List Char} (h : '\r' ∉ start) (cs : List Char) :
    withoutReturn (start ++ cs) = start ++ withoutReturn cs := by
  cases cs with
  | nil =>
    have : start.getLast? ≠ some '\r' := fun he => h (List.mem_of_getLast? he)
    simp [withoutReturn, this]
  | cons c cs =>
    unfold withoutReturn
    rw [List.getLast?_append, List.getLast?_cons, Option.some_or]
    split
    · rw [List.dropLast_append_of_ne_nil (List.cons_ne_nil c cs)]
    · rfl

theorem flatMap_expandTab {cs : List Char} (h : '\t' ∉ cs) : cs.flatMap expandTab = cs := by
  induction cs with
  | nil => rfl
  | cons c cs ih =>
    have hc : c ≠ '\t' := fun he => h (he ▸ List.mem_cons_self)
    rw [List.flatMap_cons, ih fun hm => h (List.mem_cons_of_mem c hm), expandTab, if_neg hc]
    rfl

/-- A text that the scanner does not change. -/
def IsClean (s : String) : Prop := '\r' ∉ s.toList ∧ '\t' ∉ s.toList

instance (s : String) : Decidable (IsClean s) := inferInstanceAs (Decidable (_ ∧ _))

theorem IsClean.append {s t : String} (hs : IsClean s) (ht : IsClean t) : IsClean (s ++ t) := by
  simp only [IsClean, String.toList_append, List.mem_append, not_or]
  exact ⟨⟨hs.1, ht.1⟩, hs.2, ht.2⟩

theorem isClean_natText (n : Nat) : IsClean (natText n) := by
  rw [IsClean, natText, String.toList_ofList]
  exact ⟨not_mem_digitsOf (by decide) n, not_mem_digitsOf (by decide) n⟩

theorem isClean_spaces (n : Nat) : IsClean (spaces n) := by
  rw [IsClean, spaces, String.toList_ofList]
  exact ⟨fun h => absurd (List.eq_of_mem_replicate h) (by decide),
    fun h => absurd (List.eq_of_mem_replicate h) (by decide)⟩

theorem scanned_append {start : String} (h : IsClean start) (s : String) :
    (scanned (start ++ s)).toList = start.toList ++ (scanned s).toList := by
  simp only [scanned, expandTabs, String.toList_ofList, String.toList_append,
    withoutReturn_append h.1, List.flatMap_append, flatMap_expandTab h.2]

theorem scanned_eq {s : String} (h : IsClean s) : scanned s = s := by
  have hlast : s.toList.getLast? ≠ some '\r' := fun he => h.1 (List.mem_of_getLast? he)
  rw [scanned, withoutReturn, if_neg hlast, expandTabs, String.toList_ofList, flatMap_expandTab h.2,
    String.ofList_toList]

/-- A way of showing lines that changes tabs and carriage returns at most. -/
structure IsView (view : String → String) : Prop where
  empty : view "" = ""
  append : ∀ {start : String}, IsClean start → ∀ rest, view (start ++ rest) = start ++ view rest

theorem isView_scanned : IsView scanned := ⟨scanned_eq (by decide), fun h rest => by
  rw [← String.toList_inj, scanned_append h, String.toList_append]⟩

theorem isView_withoutReturn : IsView fun l => String.ofList (withoutReturn l.toList) :=
  ⟨rfl, fun h rest => by
    rw [← String.toList_inj, String.toList_ofList, String.toList_append, withoutReturn_append h.1,
      String.toList_append, String.toList_ofList]⟩

namespace IsView

variable {view : String → String}

theorem toList_append (hview : IsView view) {start : String} (h : IsClean start) (rest : String) :
    (view (start ++ rest)).toList = start.toList ++ (view rest).toList := by
  rw [hview.append h, String.toList_append]

theorem eq_self (hview : IsView view) {s : String} (h : IsClean s) : view s = s := by
  have happend := hview.append h ""
  rwa [hview.empty, String.append_empty] at happend

end IsView

end Dashboard.Region
