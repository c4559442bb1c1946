import Dashboard.Proofs.Rebuild.Scan
/-!
# How far regions extend

The lines of a region follow its opener without a break. Blank lines never end a region, nor do lines
without an indent that are no root keys, as long as no line has fixed the indent of the region. The line
that ends a region is outside of it, so that no two regions meet.
-/

namespace Dashboard

open Text

namespace RegionLine

def isBlank (l : RegionLine) : Bool := onlyBlank l.text.toList

def indent (l : RegionLine) : Nat := Region.indentOf l.text.toList

def isRootKey (l : RegionLine) : Bool := Region.isRootKey l.text.toList

def isIndented (l : RegionLine) : Bool := !l.isBlank && 0 < l.indent

/-- The region that a line opens, if it is outside of all others. -/
def opens? (l : RegionLine) : Option Region := Region.ofOpener? l.text.toList

/-- Lines that follow each other, none of them outside of all regions, while the lines before and behind
them are. -/
structure IsRun (front body back : List RegionLine) : Prop where
  nonempty : body ≠ []
  inside : ∀ l ∈ body, l.region ≠ none
  before : ∀ l ∈ front.getLast?, l.region = none
  behind : ∀ l ∈ back.head?, l.region = none

end RegionLine

/-- The lines of a region behind an opener of some indent, and the line behind them.

The first indented line fixes the indent of the region, which is greater than that of the opener. All
lines before it are blank or without indent, and all lines behind it are blank or have its indent at least.
The next line is not blank. It is a root key or has less than the indent of the region; if no indent was
fixed, it has an indent that is not greater than that of the opener. -/
structure Region.Encloses (region : Region) (openerIndent : Nat) (body : List RegionLine)
    (next? : Option RegionLine) : Prop where
  regions : ∀ l ∈ body, l.region = some region
  roots : ∀ l ∈ body, l.isBlank = false → l.isRootKey = false
  indents : ∀ before first behind, body = before ++ first :: behind → (∀ l ∈ before, l.isIndented = false) →
    first.isIndented = true → openerIndent < first.indent ∧ (∀ l ∈ before, l.isBlank = false → l.indent = 0) ∧
      ∀ l ∈ behind, l.isBlank = false → first.indent ≤ l.indent
  ends : ∀ l ∈ next?, l.isBlank = false ∧ (l.isRootKey = true ∨
    match body.find? RegionLine.isIndented with
    | some first => l.indent < first.indent
    | none => 1 ≤ l.indent ∧ l.indent ≤ openerIndent)

namespace OpenRegion

variable {r r' : OpenRegion} {l : RegionLine}

/-- What it takes to extend a region, and what the line changes of it. -/
theorem extend?_eq (r : OpenRegion) (l : RegionLine) : r.extend? l.text.toList =
    if l.isBlank then some r
    else if l.isRootKey then none
    else match r.indent with
      | some fixed => if fixed ≤ l.indent then some r else none
      | none =>
        if l.indent = 0 then some r
        else if r.openerIndent < l.indent then some { r with indent := some l.indent }
        else none := rfl

/-- A line ends a region whose indent is not fixed if it is a root key, or indented no more than the opener. -/
theorem of_extend?_free_eq_none (hr : r.indent = none) (h : r.extend? l.text.toList = none) :
    l.isBlank = false ∧ (l.isRootKey = true ∨ 1 ≤ l.indent ∧ l.indent ≤ r.openerIndent) := by
  rw [extend?_eq, hr] at h
  cases hblank : l.isBlank with
  | true => simp [hblank] at h
  | false =>
    refine ⟨rfl, ?_⟩
    cases hroot : l.isRootKey with
    | true => exact .inl rfl
    | false =>
      simp only [hblank, hroot, Bool.false_eq_true, if_false] at h
      split at h
      · cases h
      · split at h
        · cases h
        · exact .inr (by omega)

/-- Until the indent of a region is fixed it takes lines that are blank or without an indent as they are, and
the first line that is indented more than the opener fixes it. -/
theorem of_extend?_free_eq_some (hr : r.indent = none) (h : r.extend? l.text.toList = some r') :
    (l.isBlank = false → l.isRootKey = false) ∧ (r' = r ∧ l.isIndented = false ∨
      r' = { r with indent := some l.indent } ∧ l.isBlank = false ∧ l.isIndented = true ∧
        r.openerIndent < l.indent) := by
  rw [extend?_eq, hr] at h
  cases hblank : l.isBlank with
  | true =>
    rw [if_pos hblank] at h
    cases h
    exact ⟨nofun, .inl ⟨rfl, by simp [RegionLine.isIndented, hblank]⟩⟩
  | false =>
    rw [if_neg (by simp [hblank])] at h
    split at h
    · cases h
    · next hroot =>
      refine ⟨fun _ => Bool.eq_false_iff.mpr hroot, ?_⟩
      simp only at h
      split at h
      · next hzero =>
        cases h
        exact .inl ⟨rfl, by simp [RegionLine.isIndented, hzero]⟩
      · next hpos =>
        split at h
        · next hdeeper =>
          cases h
          exact .inr ⟨rfl, rfl, by simp [RegionLine.isIndented, hblank, Nat.pos_of_ne_zero hpos], hdeeper⟩
        · cases h

theorem extend?_fixed {fixed : Nat} (hr : r.indent = some fixed) :
    r.extend? l.text.toList = if l.isBlank || (!l.isRootKey && fixed ≤ l.indent) then some r else none := by
  rw [extend?_eq, hr]
  cases l.isBlank <;> cases l.isRootKey <;> simp

end OpenRegion

namespace Region.Encloses

variable {region : Region} {openerIndent : Nat} {l : RegionLine} {body : List RegionLine}
  {next? : Option RegionLine}

theorem nil (h : ∀ l ∈ next?, l.isBlank = false ∧
    (l.isRootKey = true ∨ 1 ≤ l.indent ∧ l.indent ≤ openerIndent)) :
    region.Encloses openerIndent [] next? where
  regions := fun _ hl => absurd hl List.not_mem_nil
  roots := fun _ hl => absurd hl List.not_mem_nil
  indents := fun before _ _ hbody => absurd hbody.symm (List.append_ne_nil_of_right_ne_nil before (List.cons_ne_nil _ _))
  ends := h

/-- A line that is blank or has no indent leaves the indent of the region open. -/
theorem consPlain (h : region.Encloses openerIndent body next?) (hregion : l.region = some region)
    (hroot : l.isBlank = false → l.isRootKey = false) (hplain : l.isIndented = false) :
    region.Encloses openerIndent (l :: body) next? where
  regions := List.forall_mem_cons.mpr ⟨hregion, h.regions⟩
  roots := List.forall_mem_cons.mpr ⟨hroot, h.roots⟩
  indents before first behind hbody hbefore hfirst := by
    have hl : l.isBlank = false → l.indent = 0 := fun hblank => by simpa [RegionLine.isIndented, hblank] using hplain
    cases before with
    | nil =>
      obtain ⟨rfl, -⟩ := List.cons.inj hbody
      rw [hplain] at hfirst
      cases hfirst
    | cons b before =>
      obtain ⟨rfl, hrest⟩ := List.cons.inj hbody
      obtain ⟨-, hbefore⟩ := List.forall_mem_cons.mp hbefore
      obtain ⟨hdeeper, hzero, hdeep⟩ := h.indents before first behind hrest hbefore hfirst
      exact ⟨hdeeper, List.forall_mem_cons.mpr ⟨hl, hzero⟩, hdeep⟩
  ends := by
    rw [List.find?_cons_of_neg (by simp [hplain])]
    exact h.ends

/-- The first indented line fixes the indent of the region. -/
theorem consFirst (hregion : l.region = some region) (hroot : l.isRootKey = false) (hl : l.isIndented = true)
    (hdeeper : openerIndent < l.indent) (hbody : ∀ b ∈ body, b.region = some region ∧
      (b.isBlank = false → b.isRootKey = false ∧ l.indent ≤ b.indent))
    (hnext : ∀ b ∈ next?, b.isBlank = false ∧ (b.isRootKey = true ∨ b.indent < l.indent)) :
    region.Encloses openerIndent (l :: body) next? where
  regions := List.forall_mem_cons.mpr ⟨hregion, fun b hb => (hbody b hb).1⟩
  roots := List.forall_mem_cons.mpr ⟨fun _ => hroot, fun b hb hblank => ((hbody b hb).2 hblank).1⟩
  indents before first behind heq hbefore hfirst := by
    cases before with
    | nil =>
      obtain ⟨rfl, rfl⟩ := List.cons.inj heq
      exact ⟨hdeeper, fun _ hb => absurd hb List.not_mem_nil, fun b hb hblank => ((hbody b hb).2 hblank).2⟩
    | cons b before =>
      obtain ⟨rfl, -⟩ := List.cons.inj heq
      rw [hbefore l List.mem_cons_self] at hl
      cases hl
  ends := by
    rw [List.find?_cons_of_pos hl]
    exact hnext

end Region.Encloses

namespace RegionLine

variable {open? : Option OpenRegion} {number : Nat} {lines : List String} {l : RegionLine}
  {front body back rest : List RegionLine}

theorem ofLines_numbers (open? : Option OpenRegion) (number : Nat) (lines : List String) :
    (ofLines open? number lines).map (fun l => (l.text, l.number)) =
      (lines.map Region.expandTabs).zipIdx number := by
  induction lines generalizing open? number with
  | nil => rfl
  | cons line lines ih =>
    rw [ofLines, List.map_cons, List.map_cons, List.zipIdx_cons]
    exact congrArg _ (ih _ _)

/-- One line: the open region decides on it, and it decides on the open region behind it. -/
theorem ofLines_step (h : ofLines open? number lines = l :: rest) :
    l.region = (OpenRegion.next? open? l.text.toList).1 ∧
      ∃ lines', rest = ofLines (OpenRegion.next? open? l.text.toList).2 (number + 1) lines' := by
  cases lines with
  | nil => cases h
  | cons line lines =>
    rw [ofLines] at h
    obtain ⟨rfl, rfl⟩ := List.cons.inj h
    exact ⟨rfl, lines, rfl⟩

theorem ofLines_append (h : ofLines open? number lines = front ++ back) :
    ∃ open?' number' lines', back = ofLines open?' number' lines' := by
  induction front generalizing open? number lines with
  | nil => exact ⟨open?, number, lines, h.symm⟩
  | cons l front ih =>
    obtain ⟨-, lines', hrest⟩ := ofLines_step h
    exact ih hrest.symm

/-- A line outside of all regions ends the one before it, and opens a region or none. -/
theorem ofLines_outside (h : ofLines open? number lines = l :: rest) (hl : l.region = none) :
    ∃ lines', rest = ofLines (OpenRegion.ofOpener? l.text.toList) (number + 1) lines' := by
  obtain ⟨hregion, lines', hrest⟩ := ofLines_step h
  refine ⟨lines', hrest.trans ?_⟩
  rw [OpenRegion.next?] at hregion ⊢
  split at hregion
  · rw [hl] at hregion
    cases hregion
  · rfl

theorem ofLines_none (h : ofLines none number lines = l :: rest) : l.region = none := (ofLines_step h).1

/-- A line behind an opened region either extends it or is outside of it. -/
theorem ofLines_some {r : OpenRegion} (h : ofLines (some r) number lines = l :: rest) :
    (l.region = none ∧ r.extend? l.text.toList = none) ∨ l.region ≠ none ∧ ∃ r',
      r.extend? l.text.toList = some r' ∧ l.region = some r'.region ∧
        ∃ lines', rest = ofLines (some r') (number + 1) lines' := by
  obtain ⟨hregion, hrest⟩ := ofLines_step h
  rw [OpenRegion.next?, Option.bind_some] at hregion hrest
  cases hextend : r.extend? l.text.toList with
  | none =>
    rw [hextend] at hregion
    exact .inl ⟨hregion, rfl⟩
  | some r' =>
    rw [hextend] at hregion hrest
    refine .inr ⟨?_, r', rfl, hregion, hrest⟩
    rw [hregion]
    exact Option.some_ne_none _

/-- A region whose indent is fixed extends over all lines that are blank or have this indent at least. -/
theorem extent_fixed {r : OpenRegion} {fixed : Nat} (hr : r.indent = some fixed)
    (h : ofLines (some r) number lines = body ++ back) (hbody : ∀ l ∈ body, l.region ≠ none)
    (hback : ∀ l ∈ back.head?, l.region = none) :
    (∀ l ∈ body, l.region = some r.region ∧ (l.isBlank = false → l.isRootKey = false ∧ fixed ≤ l.indent)) ∧
      ∀ l ∈ back.head?, l.isBlank = false ∧ (l.isRootKey = true ∨ l.indent < fixed) := by
  induction body generalizing number lines with
  | nil =>
    refine ⟨fun _ hl => absurd hl List.not_mem_nil, fun l hl => ?_⟩
    obtain ⟨rest, rfl⟩ : ∃ rest, back = l :: rest := List.head?_eq_some_iff.mp hl
    rcases ofLines_some h with ⟨-, hnone⟩ | ⟨hsome, -⟩
    · rw [OpenRegion.extend?_fixed hr] at hnone
      cases hblank : l.isBlank <;> cases hroot : l.isRootKey <;> simp_all
    · exact absurd (hback l rfl) hsome
  | cons l body ih =>
    obtain ⟨hl, hbody⟩ := List.forall_mem_cons.mp hbody
    rcases ofLines_some h with ⟨hnone, -⟩ | ⟨-, r', hextend, hregion, lines', hrest⟩
    · exact absurd hnone hl
    · rw [OpenRegion.extend?_fixed hr] at hextend
      split at hextend
      · next hin =>
        cases hextend
        obtain ⟨hlater, hnext⟩ := ih hrest.symm hbody
        refine ⟨List.forall_mem_cons.mpr ⟨⟨hregion, fun hblank => ?_⟩, hlater⟩, hnext⟩
        simpa [hblank] using hin
      · cases hextend

/-- The extent of a region whose indent is not fixed yet. -/
theorem extent_free {r : OpenRegion} (hr : r.indent = none)
    (h : ofLines (some r) number lines = body ++ back) (hbody : ∀ l ∈ body, l.region ≠ none)
    (hback : ∀ l ∈ back.head?, l.region = none) : r.region.Encloses r.openerIndent body back.head? := by
  induction body generalizing number lines with
  | nil =>
    refine .nil fun l hl => ?_
    obtain ⟨rest, rfl⟩ : ∃ rest, back = l :: rest := List.head?_eq_some_iff.mp hl
    rcases ofLines_some h with ⟨-, hnone⟩ | ⟨hsome, -⟩
    · exact OpenRegion.of_extend?_free_eq_none hr hnone
    · exact absurd (hback l rfl) hsome
  | cons l body ih =>
    obtain ⟨hl, hbody⟩ := List.forall_mem_cons.mp hbody
    rcases ofLines_some h with ⟨hnone, -⟩ | ⟨-, r', hextend, hregion, lines', hrest⟩
    · exact absurd hnone hl
    · obtain ⟨hroot, ⟨rfl, hplain⟩ | ⟨rfl, hblank, hindented, hdeeper⟩⟩ :=
        OpenRegion.of_extend?_free_eq_some hr hextend
      · exact (ih hrest.symm hbody).consPlain hregion hroot hplain
      · obtain ⟨hlater, hnext⟩ := extent_fixed rfl hrest.symm hbody hback
        exact .consFirst hregion (hroot hblank) hindented hdeeper hlater hnext

/-- The lines behind a line outside of all regions, up to the next such line. -/
theorem extent (h : ofLines open? number lines = l :: (body ++ back)) (hl : l.region = none)
    (hbody : ∀ b ∈ body, b.region ≠ none) (hback : ∀ b ∈ back.head?, b.region = none) :
    match l.opens? with
    | none => body = []
    | some region => region.Encloses l.indent body back.head? := by
  obtain ⟨lines', hrest⟩ := ofLines_outside h hl
  rw [OpenRegion.ofOpener?] at hrest
  rw [opens?]
  cases hopens : Region.ofOpener? l.text.toList with
  | none =>
    rw [hopens] at hrest
    cases body with
    | nil => rfl
    | cons b body => exact absurd (ofLines_none hrest.symm) (hbody b List.mem_cons_self)
  | some region =>
    rw [hopens] at hrest
    exact extent_free rfl hrest.symm hbody hback

theorem exists_ofLines_of_append (h : ofLines none 1 lines = front ++ back) :
    ∃ open? number lines', ofLines open? number lines' = back := by
  obtain ⟨open?, number, lines', hback⟩ := ofLines_append h
  exact ⟨open?, number, lines', hback.symm⟩

/-- A run of lines in regions is the extent of the region that the line before it opens. -/
theorem exists_opener_of_isRun (h : ofLines none 1 lines = front ++ body ++ back) (hrun : IsRun front body back) :
    ∃ front' opener region, front = front' ++ [opener] ∧ opener.region = none ∧ opener.opens? = some region ∧
      region.Encloses opener.indent body back.head? := by
  rcases List.eq_nil_or_concat front with rfl | ⟨front', opener, rfl⟩
  · obtain ⟨l, body', rfl⟩ := List.exists_cons_of_ne_nil hrun.nonempty
    exact absurd (ofLines_none h) (hrun.inside l List.mem_cons_self)
  · have hopener : opener.region = none := hrun.before opener (by simp)
    have hsplit : ofLines none 1 lines = front' ++ opener :: (body ++ back) := by simpa using h
    obtain ⟨open?, number, lines', hback⟩ := exists_ofLines_of_append hsplit
    have hextent := extent hback hopener hrun.inside hrun.behind
    cases hopens : opener.opens? with
    | none =>
      rw [hopens] at hextent
      exact absurd hextent hrun.nonempty
    | some region =>
      rw [hopens] at hextent
      exact ⟨front', opener, region, by simp, hopener, hopens, hextent⟩

/-- An opener whose region has no lines is followed by a line that ends the region. -/
theorem encloses_nil (h : ofLines open? number lines = l :: next :: back) (hl : l.region = none)
    (hnext : next.region = none) {region : Region} (hopens : l.opens? = some region) :
    region.Encloses l.indent [] (some next) := by
  have hempty : ofLines open? number lines = l :: ([] ++ next :: back) := h
  have hextent := extent hempty hl (fun _ hb => absurd hb List.not_mem_nil) (by simpa using hnext)
  rw [hopens] at hextent
  exact hextent

/-- Behind a line that is no opener, nothing is in a region. -/
theorem region_next_of_plain (h : ofLines open? number lines = l :: next :: back) (hl : l.region = none)
    (hopens : l.opens? = none) : next.region = none := by
  obtain ⟨lines', hrest⟩ := ofLines_outside h hl
  rw [OpenRegion.ofOpener?, show Region.ofOpener? l.text.toList = none from hopens] at hrest
  exact ofLines_none hrest.symm

end RegionLine

/-- The extent of regions in a text. Every line of the text is scanned once, in order, and numbered from one.
A run of lines in regions lies behind an opener that is outside of all regions, and is the extent of the
region that it opens. An opener whose region has no lines is followed by a line that ends it; behind a line
that is no opener nothing is in a region. -/
theorem RegionLine.ofText_extents (text : String) :
    let scanned := RegionLine.ofText text
    scanned.map (fun l => (l.text, l.number)) = ((lines text).map Region.expandTabs).zipIdx 1 ∧
      (∀ front body back, scanned = front ++ body ++ back → IsRun front body back →
        ∃ front' opener region, front = front' ++ [opener] ∧ opener.region = none ∧
          opener.opens? = some region ∧ region.Encloses opener.indent body back.head?) ∧
      (∀ front l next back, scanned = front ++ l :: next :: back → l.region = none → next.region = none →
        ∀ region ∈ l.opens?, region.Encloses l.indent [] (some next)) ∧
      ∀ front l next back, scanned = front ++ l :: next :: back → l.region = none → l.opens? = none →
        next.region = none := by
  refine ⟨ofLines_numbers none 1 _, fun _ _ _ => exists_opener_of_isRun, ?_, ?_⟩
  · intro front l next back h hl hnext region hopens
    obtain ⟨open?, number, lines, hback⟩ := exists_ofLines_of_append h
    exact encloses_nil hback hl hnext hopens
  · intro front l next back h hl hopens
    obtain ⟨open?, number, lines, hback⟩ := exists_ofLines_of_append h
    exact region_next_of_plain hback hl hopens

end Dashboard
