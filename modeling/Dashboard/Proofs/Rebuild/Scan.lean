import Dashboard.Proofs.Text.Lines
import Dashboard.Rebuild.Layout
/-!
# Reading a text region by region

A rebuild goes through the scanned lines of a text with the open region as its state. Lines outside
of every region that open none change nothing. After the line that opens a drawing lambda every
line with the indent of the first one is read as drawing code.
-/

namespace Dashboard

open Text

namespace Region

/-- Whether a line stays in a region of some indent. -/
def Reaches (indent : Nat) (line : String) : Prop :=
  onlyBlank line.toList = true ∨ indent ≤ indentOf line.toList

theorem indentOf_indent (n : Nat) (cs : List Char) : n ≤ indentOf (List.replicate n ' ' ++ cs) := by
  rw [indentOf, List.takeWhile_append_of_pos fun c hc => by simp [List.eq_of_mem_replicate hc],
    List.length_append, List.length_replicate]
  exact Nat.le_add_right n _

theorem isRootKey_of_indent {cs : List Char} (h : 0 < indentOf cs) : isRootKey cs = false := by
  cases cs with
  | nil => rfl
  | cons c cs =>
    cases hc : c == ' ' with
    | false => simp [indentOf, hc] at h
    | true =>
      rw [eq_of_beq hc]
      rfl

end Region

namespace OpenRegion

theorem extend?_of_reaches {r : OpenRegion} {indent : Nat} (hr : r.indent = some indent)
    (hpos : 0 < indent) {line : String} (h : Region.Reaches indent line) :
    r.extend? line.toList = some r := by
  unfold extend?
  rcases h with hblank | hindent
  · simp [hblank]
  · have hroot := Region.isRootKey_of_indent (Nat.lt_of_lt_of_le hpos hindent)
    simp [hroot, hr, hindent]

theorem next?_of_reaches {r : OpenRegion} {indent : Nat} (hr : r.indent = some indent)
    (hpos : 0 < indent) {line : String} (h : Region.Reaches indent line) :
    next? (some r) line.toList = (some r.region, some r) := by
  simp [next?, extend?_of_reaches hr hpos h]

end OpenRegion

namespace Rebuild

variable (g : Registry)

/-- Reads scanned lines, the first of which has a number, in the open region. -/
def readLines : Option OpenRegion → Nat → Rebuild → List String → Rebuild
  | _, _, r, [] => r
  | open?, number, r, l :: ls =>
    let (region, open?) := OpenRegion.next? open? l.toList
    readLines open? (number + 1) (r.line g ⟨region, number, l⟩) ls

/-- Reads scanned lines of one drawing region. -/
def drawLines : Nat → Rebuild → List String → Rebuild
  | _, r, [] => r
  | number, r, l :: ls => drawLines (number + 1) (r.drawingLine g ⟨some .drawing, number, l⟩) ls

variable {g}

theorem foldl_ofLines (open? : Option OpenRegion) (number : Nat) (r : Rebuild) (ls : List String) :
    (RegionLine.ofLines open? number ls).foldl (line g) r =
      readLines g open? number r (ls.map Region.expandTabs) := by
  induction ls generalizing open? number r with
  | nil => rfl
  | cons l ls ih => exact ih _ _ _

theorem run_unlines {ls : List String} (h : ∀ l ∈ ls, OneLine l) :
    run g (unlines ls) = readLines g none 1 {} (ls.map Region.scanned) := by
  rw [run, RegionLine.ofText, lines_unlines h, foldl_ofLines, List.map_map]
  rfl

theorem drawLines_append (number : Nat) (r : Rebuild) (ls ms : List String) :
    drawLines g number r (ls ++ ms) = drawLines g (number + ls.length) (drawLines g number r ls) ms := by
  induction ls generalizing number r with
  | nil => rfl
  | cons l ls ih =>
    rw [List.cons_append, drawLines, drawLines, ih, List.length_cons, Nat.add_assoc, Nat.add_comm 1]

theorem readLines_outside {front : List String}
    (h : ∀ l ∈ front, Region.ofOpener? l.toList = none) (number : Nat) (r : Rebuild)
    (ls : List String) :
    readLines g none number r (front ++ ls) = readLines g none (number + front.length) r ls := by
  induction front generalizing number with
  | nil => rfl
  | cons l front ih =>
    have hnext : OpenRegion.next? none l.toList = (none, none) := by
      simp [OpenRegion.next?, OpenRegion.ofOpener?, h l List.mem_cons_self]
    rw [List.cons_append, readLines]
    simp only [hnext]
    change readLines g none (number + 1) r (front ++ ls) = _
    rw [ih (fun l' hl' => h l' (List.mem_cons_of_mem l hl')), List.length_cons, Nat.add_assoc,
      Nat.add_comm 1]

theorem readLines_inside {region : OpenRegion} {indent : Nat} (hdrawing : region.region = .drawing)
    (hindent : region.indent = some indent) (hpos : 0 < indent) {front : List String}
    (h : ∀ l ∈ front, Region.Reaches indent l) (number : Nat) (r : Rebuild) (ls : List String) :
    readLines g (some region) number r (front ++ ls) =
      readLines g (some region) (number + front.length) (drawLines g number r front) ls := by
  induction front generalizing number r with
  | nil => rfl
  | cons l front ih =>
    have hnext := OpenRegion.next?_of_reaches hindent hpos (h l List.mem_cons_self)
    rw [List.cons_append, readLines]
    simp only [hnext, hdrawing]
    change readLines g (some region) (number + 1) (r.drawingLine g ⟨some .drawing, number, l⟩)
      (front ++ ls) = _
    rw [ih (fun l' hl' => h l' (List.mem_cons_of_mem l hl')), List.length_cons, Nat.add_assoc,
      Nat.add_comm 1, drawLines]

/-- Reads a drawing region with its opener. The first line of code decides on the indent. -/
theorem readLines_drawing (opener : String) {first : String} {front : List String} {indent : Nat}
    (hopener : Region.ofOpener? opener.toList = some .drawing)
    (hdeeper : Region.indentOf opener.toList < Region.indentOf first.toList)
    (hindent : Region.indentOf first.toList = indent) (hcode : onlyBlank first.toList = false)
    (h : ∀ l ∈ front, Region.Reaches indent l) (number : Nat) (r : Rebuild) (ls : List String) :
    ∃ region : OpenRegion, region.indent = some indent ∧
      readLines g none number r (opener :: first :: (front ++ ls)) =
        readLines g (some region) (number + 2 + front.length)
          (drawLines g (number + 1) r (first :: front)) ls := by
  have hpos : 0 < indent := by omega
  have hopen : OpenRegion.next? none opener.toList =
      (none, some ⟨.drawing, Region.indentOf opener.toList, none⟩) := by
    simp [OpenRegion.next?, OpenRegion.ofOpener?, hopener]
  have hroot : Region.isRootKey first.toList = false :=
    Region.isRootKey_of_indent (hindent ▸ hpos)
  have hfirst : OpenRegion.next? (some ⟨.drawing, Region.indentOf opener.toList, none⟩)
      first.toList = (some .drawing, some ⟨.drawing, Region.indentOf opener.toList, some indent⟩) := by
    subst hindent
    have hne : Region.indentOf first.toList ≠ 0 := by omega
    simp [OpenRegion.next?, OpenRegion.extend?, hcode, hroot, hne, hdeeper]
  refine ⟨⟨.drawing, Region.indentOf opener.toList, some indent⟩, rfl, ?_⟩
  rw [readLines]
  simp only [hopen]
  rw [readLines]
  simp only [hfirst]
  change readLines g (some ⟨.drawing, _, some indent⟩) (number + 1 + 1)
    (r.drawingLine g ⟨some .drawing, number + 1, first⟩) (front ++ ls) = _
  rw [readLines_inside rfl rfl hpos h, drawLines]

/-- A root key that opens nothing ends the open region. -/
theorem readLines_rootKey {region : OpenRegion} {key : String}
    (hroot : Region.isRootKey key.toList = true) (hcode : onlyBlank key.toList = false)
    (hquiet : Region.ofOpener? key.toList = none) (number : Nat) (r : Rebuild) (ls : List String) :
    readLines g (some region) number r (key :: ls) = readLines g none (number + 1) r ls := by
  have hnext : OpenRegion.next? (some region) key.toList = (none, none) := by
    simp [OpenRegion.next?, OpenRegion.extend?, OpenRegion.ofOpener?, hroot, hcode, hquiet]
  rw [readLines]
  simp only [hnext]
  rfl

end Rebuild

end Dashboard
