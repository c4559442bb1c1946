import Dashboard.Proofs.Rebuild.Extents
/-!
# Texts joined at a root key

A root key ends every open region, whether or not the indent of the region is fixed, and is then read as a line
outside of all regions. A text that starts with a root key is therefore scanned alike behind every text that
ends with its line: the regions in it are the same, and its lines are counted on.
-/

namespace Dashboard

open Text

namespace Text

/-- A text without lines, or with a line feed at its end. -/
def EndsLine (s : String) : Prop := s = "" ∨ ∃ front, s = front ++ "\n"

/-- A line feed separates the lines before it from those behind it. -/
theorem lineChars_append_lines (front rest : List Char) :
    lineChars (front ++ '\n' :: rest) = lineChars (front ++ ['\n']) ++ lineChars rest := by
  by_cases h : '\n' ∈ front
  · obtain ⟨line, front', hfront, hline⟩ := List.eq_append_cons_of_mem h
    have hlater := lineChars_append_lines front' rest
    rw [hfront, List.append_assoc, List.append_assoc, List.cons_append, List.cons_append,
      lineChars_append_feed hline, lineChars_append_feed hline, hlater, List.cons_append]
  · rw [lineChars_append_feed h, lineChars_append_feed h]
    rfl
termination_by front.length
decreasing_by
  rw [hfront, List.length_append, List.length_cons]
  omega

theorem EndsLine.lines_append {s : String} (h : EndsLine s) (t : String) : lines (s ++ t) = lines s ++ lines t := by
  rcases h with rfl | ⟨front, rfl⟩
  · rw [String.empty_append]
    rfl
  · have hchars := lineChars_append_lines front.toList t.toList
    simp only [lines, String.toList_append, List.append_assoc, ← List.map_append]
    exact congrArg _ hchars

end Text

namespace Region

/-- A line without an indent that starts with a word and a colon. -/
def StartsKey (line : String) : Prop :=
  ∃ word rest, line.toList = word ++ ':' :: rest ∧ word ≠ [] ∧ ∀ c ∈ word, isWord c = true

/-- A text whose first line is a root key. -/
def StartsSection (text : String) : Prop := ∃ key later, lines text = key :: later ∧ StartsKey key

theorem isRootKey_of_startsKey {line : String} (h : StartsKey line) : isRootKey line.toList = true := by
  obtain ⟨word, rest, hline, hne, hword⟩ := h
  have hcolon : ¬ isWord ':' = true := by decide
  obtain ⟨c, word, rfl⟩ := List.exists_cons_of_ne_nil hne
  rw [isRootKey, hline, List.takeWhile_append_of_pos hword, List.dropWhile_append_of_pos hword,
    List.takeWhile_cons_of_neg hcolon, List.dropWhile_cons_of_neg hcolon, List.append_nil]
  rfl

theorem onlyBlank_of_startsKey {line : String} (h : StartsKey line) : onlyBlank line.toList = false := by
  obtain ⟨word, rest, hline, -, -⟩ := h
  have hcolon : isBlank ':' = false := by decide
  simp [onlyBlank, hline, hcolon]

/-- Tabs stand behind the key only. -/
theorem StartsKey.expandTabs {line : String} (h : StartsKey line) : StartsKey (expandTabs line) := by
  obtain ⟨word, rest, hline, hne, hword⟩ := h
  have htab : '\t' ∉ word := fun hmem => absurd (hword _ hmem) (by decide)
  refine ⟨word, rest.flatMap expandTab, ?_, hne, hword⟩
  rw [Region.expandTabs, String.toList_ofList, hline, List.flatMap_append, flatMap_expandTab htab, List.flatMap_cons]
  rfl

end Region

namespace OpenRegion

/-- The region that is open behind some lines. -/
def behind (open? : Option OpenRegion) (lines : List String) : Option OpenRegion :=
  lines.foldl (fun open? line => (next? open? (Region.expandTabs line).toList).2) open?

/-- A root key is read alike in every open region and outside of all regions. -/
theorem next?_startsKey {key : String} (h : Region.StartsKey key) (open? : Option OpenRegion) :
    next? open? key.toList = next? none key.toList := by
  have hblank := Region.onlyBlank_of_startsKey h
  have hroot := Region.isRootKey_of_startsKey h
  cases open? with
  | none => rfl
  | some r =>
    have hextend : r.extend? key.toList = none := by simp [extend?, hblank, hroot]
    simp [next?, hextend]

end OpenRegion

namespace RegionLine

/-- A line behind so many other lines. -/
def moved (n : Nat) (l : RegionLine) : RegionLine := { l with number := n + l.number }

theorem ofLines_cons (open? : Option OpenRegion) (number : Nat) (line : String) (lines : List String) :
    ofLines open? number (line :: lines) =
      ⟨(OpenRegion.next? open? (Region.expandTabs line).toList).1, number, Region.expandTabs line⟩ ::
        ofLines (OpenRegion.next? open? (Region.expandTabs line).toList).2 (number + 1) lines := rfl

/-- The lines behind others are scanned in the region that is open there. -/
theorem ofLines_append_lines (open? : Option OpenRegion) (number : Nat) (front back : List String) :
    ofLines open? number (front ++ back) =
      ofLines open? number front ++ ofLines (OpenRegion.behind open? front) (number + front.length) back := by
  induction front generalizing open? number with
  | nil => rfl
  | cons line front ih =>
    rw [List.cons_append, ofLines_cons, ofLines_cons, ih, List.cons_append, List.length_cons, Nat.add_assoc,
      Nat.add_comm 1]
    rfl

/-- The number of the first line counts for the numbers only. -/
theorem ofLines_moved (n : Nat) (open? : Option OpenRegion) (number : Nat) (lines : List String) :
    ofLines open? (n + number) lines = (ofLines open? number lines).map (moved n) := by
  induction lines generalizing open? number with
  | nil => rfl
  | cons line lines ih =>
    rw [ofLines_cons, ofLines_cons, Nat.add_assoc, ih, List.map_cons]
    rfl

/-- Behind a root key it does not matter which region was open before. -/
theorem ofLines_startsKey {key : String} (h : Region.StartsKey key) (open? : Option OpenRegion) (number : Nat)
    (lines : List String) : ofLines open? number (key :: lines) = ofLines none number (key :: lines) := by
  rw [ofLines_cons, ofLines_cons, OpenRegion.next?_startsKey h.expandTabs open?]

end RegionLine

/-- A text that starts with a root key is scanned behind every text that ends with its line as it is scanned
alone, but for the numbers of its lines. -/
theorem RegionLine.ofText_append_section {front back : String} (hfront : EndsLine front)
    (hback : Region.StartsSection back) :
    ofText (front ++ back) = ofText front ++ (ofText back).map (moved (lines front).length) := by
  obtain ⟨key, later, hlines, hkey⟩ := hback
  calc ofText (front ++ back)
      = ofLines none 1 (lines front ++ lines back) := by rw [ofText, hfront.lines_append]
    _ = ofText front ++ ofLines (OpenRegion.behind none (lines front)) (1 + (lines front).length) (lines back) :=
      ofLines_append_lines none 1 _ _
    _ = ofText front ++ ofLines none ((lines front).length + 1) (lines back) := by
      rw [hlines, ofLines_startsKey hkey, Nat.add_comm 1]
    _ = ofText front ++ (ofText back).map (moved (lines front).length) := by
      rw [ofLines_moved, ofText, ofText]

/-- The first text leaves a region with a fixed indent open, and the key of the second opens one itself. -/
theorem RegionLine.ofText_append_opener :
    EndsLine "lvgl:\n  pages:\n\n" ∧ Region.StartsSection "lambda: |-\nit.fill(c);\nsensor:\n" ∧
      ofText ("lvgl:\n  pages:\n\n" ++ "lambda: |-\nit.fill(c);\nsensor:\n") =
        ofText "lvgl:\n  pages:\n\n" ++ (ofText "lambda: |-\nit.fill(c);\nsensor:\n").map (moved 3) := by
  have hfront : EndsLine "lvgl:\n  pages:\n\n" := .inr ⟨"lvgl:\n  pages:\n", by decide⟩
  have hword : ∀ c ∈ "lambda".toList, isWord c = true := List.all_eq_true.mp (by decide)
  have hkey : Region.StartsKey "lambda: |-" := ⟨"lambda".toList, " |-".toList, by decide, by decide, hword⟩
  have hback : Region.StartsSection "lambda: |-\nit.fill(c);\nsensor:\n" :=
    ⟨"lambda: |-", ["it.fill(c);", "sensor:"], by decide, hkey⟩
  have hlength : (lines "lvgl:\n  pages:\n\n").length = 3 := by decide
  exact ⟨hfront, hback, hlength ▸ ofText_append_section hfront hback⟩

end Dashboard
