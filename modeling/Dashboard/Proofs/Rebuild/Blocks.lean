import Dashboard.Document.Procedural
import Dashboard.Proofs.Rebuild.Steps
/-!
# Reading the pages of a drawing lambda

The body of a page consists of the blocks of its widgets, each a marker with the drawing code after
it. Reading the lines of a page gives the page its name and then the widgets of its markers, one
after the other; every other page stays as it is.
-/

namespace Dashboard

open Text Number

/-- The lines of one widget. -/
structure CodeBlock where
  marker : Marker
  first : String
  code : List String

namespace CodeBlock

def lines (b : CodeBlock) : List String := b.first :: b.code

/-- A line of drawing code, seen from the column of the lambda. -/
structure IsCode (l : String) : Prop where
  oneLine : OneLine l
  reaches : Region.Reaches Block.lambdaColumn (Region.scanned l)
  statement : Statement.ofLine (Region.scanned l) = .other true

structure IsMarker (m : Marker) (l : String) : Prop where
  oneLine : OneLine l
  reaches : Region.Reaches Block.lambdaColumn (Region.scanned l)
  statement : Statement.ofLine (Region.scanned l) = .marker m

/-- The first line is read as the marker, the others as drawing code. -/
structure Readable (b : CodeBlock) : Prop where
  first : IsMarker b.marker b.first
  code : ∀ l ∈ b.code, IsCode l

/-- The markers of blocks that stand one after the other, with their line numbers. -/
def numbered : Nat → List CodeBlock → List (Marker × Nat)
  | _, [] => []
  | number, b :: bs => (b.marker, number) :: numbered (number + b.lines.length) bs

end CodeBlock

namespace Region

theorem toList_scanned_spaces (n : Nat) (s : String) :
    (scanned (spaces n ++ s)).toList = List.replicate n ' ' ++ (scanned s).toList := by
  rw [scanned_append (isClean_spaces n), toList_spaces]

theorem scanned_spaces (n : Nat) (s : String) :
    scanned (spaces n ++ s) = String.ofList (List.replicate n ' ' ++ (scanned s).toList) := by
  rw [← toList_scanned_spaces, String.ofList_toList]

theorem reaches_spaces {column n : Nat} (h : column ≤ n) (s : String) :
    Reaches column (scanned (spaces n ++ s)) := by
  right
  rw [toList_scanned_spaces]
  exact Nat.le_trans h (indentOf_indent n _)

end Region

namespace Statement

theorem ofLine_scanned (n : Nat) (s : String) :
    ofLine (Region.scanned (spaces n ++ s)) = ofLine (Region.scanned s) := by
  rw [Region.scanned_spaces, ofLine_indent, String.ofList_toList]

end Statement

theorem CodeBlock.isCode_of_isPlain {n : Nat} (hn : Block.lambdaColumn ≤ n) {s : String}
    (hs : OneLine s) (h : Statement.IsPlain true (Region.scanned s).toList) :
    CodeBlock.IsCode (spaces n ++ s) where
  oneLine := (OneLine.spaces n).append hs
  reaches := Region.reaches_spaces hn s
  statement := by
    rw [Statement.ofLine_scanned, ← h.statement, String.ofList_toList]

namespace Rebuild

variable {g : Registry} {r : Rebuild} {page : Nat → Page} {known : Nat → Prop}
  {notices : List Notice}

theorem drawLines_code {code : List String} (h : ∀ l ∈ code, CodeBlock.IsCode l)
    (hr : r.inBody = true) (number : Nat) :
    drawLines g number r (code.map Region.scanned) = r := by
  induction code generalizing number with
  | nil => rfl
  | cons l code ih =>
    rw [List.map_cons, drawLines, drawingLine_body hr (h l List.mem_cons_self).statement,
      ih fun l' hl' => h l' (List.mem_cons_of_mem l hl')]

theorem drawLines_block {b : CodeBlock} (hb : b.Readable) (number : Nat) :
    drawLines g number r (b.lines.map Region.scanned) = r.addMarked g b.marker number := by
  rw [CodeBlock.lines, List.map_cons, drawLines, drawingLine_marker hb.first.statement,
    drawLines_code hb.code (inBody_addMarked b.marker number)]

theorem changed_changed (page : Nat → Page) (index : Nat) (p q : Page) (i : Nat) :
    changed (changed page index p) index q i = changed page index q i := by
  unfold changed
  split <;> rfl

theorem changed_self (page : Nat → Page) (index : Nat) (p : Page) :
    changed page index p index = p := if_pos rfl

theorem Shows.drawBlocks {bs : List CodeBlock} (hbs : ∀ b ∈ bs, b.Readable) (index : Nat)
    (h : r.Shows page known notices) (hcurrent : r.current = index) (hk : known index)
    (number : Nat) :
    let outcome := (page index).takeAll g (CodeBlock.numbered number bs)
    let r' := drawLines g number r ((bs.flatMap CodeBlock.lines).map Region.scanned)
    r'.Shows (changed page index outcome.1) known (notices ++ outcome.2) ∧ r'.current = index := by
  induction bs generalizing r page notices number with
  | nil =>
    have hself : ∀ i, page i = changed page index (page index) i := by
      intro i
      unfold changed
      split
      · rename_i hi
        rw [hi]
      · rfl
    rw [← List.append_nil notices] at h
    exact ⟨h.congr hself fun _ => Iff.rfl, hcurrent⟩
  | cons b bs ih =>
    have hadd := h.addMarked b.marker number (g := g)
    rw [hcurrent] at hadd
    have hknown : ∀ i, i = index ∨ known i ↔ known i := fun i =>
      ⟨fun hi => hi.elim (fun he => he ▸ hk) fun hi => hi, .inr⟩
    obtain ⟨hrest, hcurrent'⟩ := ih (fun b' hb' => hbs b' (List.mem_cons_of_mem b hb'))
      (hadd.congr (fun _ => rfl) hknown) ((current_addMarked b.marker number).trans hcurrent)
      (number + b.lines.length)
    rw [changed_self, List.append_assoc] at hrest
    rw [List.flatMap_cons, List.map_append, drawLines_append,
      drawLines_block (hbs b List.mem_cons_self), List.length_map]
    exact ⟨hrest.congr (changed_changed page index _ _) fun _ => Iff.rfl, hcurrent'⟩

/-! ## Pages -/

/-- A page name as the scanner leaves it. -/
def scannedName (name : String) : String :=
  String.ofList (readLiteralBody ((literalBody name.toList).flatMap Region.expandTab))

theorem scannedName_eq {name : String} (ht : '\t' ∉ name.toList) (hr : '\r' ∉ name.toList) :
    scannedName name = name := by
  have htab : '\t' ∉ literalBody name.toList := not_mem_literalBody (by decide) (.inr (.inr ht))
  rw [scannedName, Region.flatMap_expandTab htab, readLiteralBody_literalBody hr, String.ofList_toList]

theorem ofLine_scanned_pageName (name : String) :
    Statement.ofLine (Region.scanned (spaces Block.pageColumn ++ "// page:name " ++ literal name)) =
      .pageName (scannedName name) := by
  have hwritten : spaces Block.pageColumn ++ "// page:name " ++ literal name =
      spaces Block.pageColumn ++ ("// page:name \"" ++
        (String.ofList (literalBody name.toList) ++ "\"")) := by
    apply String.toList_inj.mp
    simp [literal]
  have hreturn : '\r' ∉ literalBody name.toList ++ ['"'] := by
    intro h
    rcases List.mem_append.mp h with h | h
    · exact not_mem_literalBody (by decide) (.inr (.inl rfl)) h
    · exact absurd h (by decide)
  have hscanned : (Region.scanned (String.ofList (literalBody name.toList) ++ "\"")).toList =
      (literalBody name.toList).flatMap Region.expandTab ++ ['"'] := by
    have hlast : (literalBody name.toList ++ ['"']).getLast? ≠ some '\r' := fun h =>
      hreturn (List.mem_of_getLast? h)
    simp [Region.scanned, Region.expandTabs, withoutReturn, Region.expandTab]
  rw [hwritten, Statement.ofLine_scanned, ← String.ofList_toList (s := Region.scanned _),
    Region.scanned_append (by decide), hscanned]
  exact Statement.ofLine_pageName _

theorem ofLine_scanned_pageTest {index : Nat} (h : index < twoTo 64) :
    Statement.ofLine (Region.scanned
      (spaces Block.lambdaColumn ++ "if (page == " ++ natText index ++ ") \x7b")) =
      .pageTest index := by
  have hclean : Region.IsClean ("if (page == " ++ (natText index ++ ") \x7b")) :=
    .append (by decide) (.append (Region.isClean_natText index) (by decide))
  have hwritten : "if (page == " ++ (natText index ++ ") \x7b") =
      String.ofList ("if (page == ".toList ++ (digitsOf index ++ ") \x7b".toList)) := by
    apply String.toList_inj.mp
    simp [natText]
  rw [String.append_assoc, String.append_assoc, Statement.ofLine_scanned,
    Region.scanned_eq hclean, hwritten]
  exact Statement.ofLine_pageTest h

theorem Shows.drawClose (h : r.Shows page known notices) (hk : known r.current) (n number : Nat) :
    let r' := r.drawingLine g ⟨some .drawing, number, Region.scanned (spaces n ++ "\x7d")⟩
    r'.Shows page known notices ∧ r'.current = r.current := by
  have hplain := Statement.isPlain_close.indent n
  have hwritten : Region.scanned (spaces n ++ "\x7d") =
      String.ofList (List.replicate n ' ' ++ ['\x7d']) := Region.scanned_spaces n "\x7d"
  have hundrawn : ∀ ordinal,
      Widget.recover? (String.ofList (List.replicate n ' ' ++ ['\x7d'])) ordinal = none :=
    fun ordinal => by rw [Statement.recover?_indent, Statement.recover?_close]
  intro r'
  cases hr : r.inBody with
  | true =>
    have hr' : r' = r := drawingLine_body hr (by rw [hwritten, hplain.statement])
    rw [hr']
    exact ⟨h, rfl⟩
  | false =>
    have hr' : r' = { r.openPage r.current with inBody := false } :=
      drawingLine_plain (by rw [hwritten, hplain.statement]) (by rw [hr]; rfl)
        (by rw [hwritten]; exact hundrawn)
    rw [hr']
    refine ⟨((h.openPage r.current).move _ _).congr (fun _ => rfl) fun i => ?_, rfl⟩
    exact ⟨fun hi => hi.elim (fun he => he ▸ hk) fun hi => hi, .inr⟩

theorem drawLines_pageStart {p : ProceduralPage} (hindex : p.index < twoTo 64) (number : Nat) :
    drawLines g number r [
      Region.scanned (spaces Block.lambdaColumn ++ "if (page == " ++ natText p.index ++ ") \x7b"),
      Region.scanned (spaces Block.pageColumn ++ "// page:name " ++ literal p.name)] =
    { r.openPage p.index with current := p.index, inBody := false }.changePage p.index
      fun q => { q with name := scannedName p.name } := by
  rw [drawLines, drawLines, drawLines, drawingLine_pageTest (ofLine_scanned_pageTest hindex),
    drawingLine_pageName (ofLine_scanned_pageName p.name)]

/-- A page after its lines were read: its name, and the widgets of its blocks, the first of which
stands on a line. -/
def drawn (g : Registry) (p : Page) (name : String) (line : Nat) (bs : List CodeBlock) :
    Page × List Notice :=
  Page.takeAll g { p with name := scannedName name } (CodeBlock.numbered line bs)

theorem Shows.drawPage {p : ProceduralPage} {bs : List CodeBlock} (hbs : ∀ b ∈ bs, b.Readable)
    (hbody : p.body = bs.flatMap CodeBlock.lines) (hindex : p.index < twoTo 64)
    (h : r.Shows page known notices) (number : Nat) :
    let outcome := drawn g (page p.index) p.name (number + 2) bs
    let r' := drawLines g number r ((ProceduralDocument.pageLines p).map Region.scanned)
    r'.Shows (changed page p.index outcome.1) (fun i => i = p.index ∨ known i)
      (notices ++ outcome.2) := by
  have hopened := (h.openPage p.index).move p.index false
  have hnamed := hopened.changePage p.index fun q => { q with name := scannedName p.name }
  have hknown : ∀ i, i = p.index ∨ i = p.index ∨ known i ↔ i = p.index ∨ known i := fun i => by
    simp
  obtain ⟨hdrawn, hcurrent⟩ := (hnamed.congr (fun _ => rfl) hknown).drawBlocks (g := g) hbs p.index
    rfl (.inl rfl) (number + 2)
  rw [changed_self] at hdrawn
  obtain ⟨hclosed, -⟩ := (hdrawn.congr (changed_changed page p.index _ _) fun _ =>
    Iff.rfl).drawClose (g := g) (.inl hcurrent) Block.lambdaColumn
      (number + 2 + (bs.flatMap CodeBlock.lines).length)
  have hlines : (ProceduralDocument.pageLines p).map Region.scanned =
      [Region.scanned (spaces Block.lambdaColumn ++ "if (page == " ++ natText p.index ++ ") \x7b"),
        Region.scanned (spaces Block.pageColumn ++ "// page:name " ++ literal p.name)] ++
      ((bs.flatMap CodeBlock.lines).map Region.scanned ++
        [Region.scanned (spaces Block.lambdaColumn ++ "\x7d")]) := by
    rw [ProceduralDocument.pageLines, hbody]
    simp only [List.map_append, List.map_cons, List.map_nil, List.cons_append, List.nil_append]
  intro outcome r'
  change (drawLines g number r ((ProceduralDocument.pageLines p).map Region.scanned)).Shows _ _ _
  rw [hlines, drawLines_append, drawLines_append, drawLines_pageStart hindex, List.length_map]
  exact hclosed

/-- How pages are read, each from a line on: they are filled and the others stay, and what is told is told of them
in their order. -/
structure Fills (g : Registry) (blocks : Nat → List CodeBlock) (ps : List ProceduralPage) (page : Nat → Page)
    (line : Nat → Nat) (page' : Nat → Page) (told : List Notice) : Prop where
  filled : ∀ p ∈ ps, page' p.index = (drawn g (page p.index) p.name (line p.index) (blocks p.index)).1
  others : ∀ i, i ∉ ps.map ProceduralPage.index → page' i = page i
  told : told = ps.flatMap fun p => (drawn g (page p.index) p.name (line p.index) (blocks p.index)).2

theorem Fills.nil {blocks : Nat → List CodeBlock} {line : Nat → Nat} : Fills g blocks [] page line page [] where
  filled := fun _ hp => absurd hp List.not_mem_nil
  others := fun _ _ => rfl
  told := rfl

/-- A page is filled before pages with other indices, which are then read as they are without it. -/
theorem Fills.cons {blocks : Nat → List CodeBlock} {p : ProceduralPage} {ps : List ProceduralPage}
    {line : Nat → Nat} {page' : Nat → Page} {told : List Notice} {start : Nat}
    (hnot : p.index ∉ ps.map ProceduralPage.index)
    (h : Fills g blocks ps (changed page p.index (drawn g (page p.index) p.name start (blocks p.index)).1)
      line page' told) :
    Fills g blocks (p :: ps) page (fun i => if i = p.index then start else line i) page'
      ((drawn g (page p.index) p.name start (blocks p.index)).2 ++ told) := by
  let line' : Nat → Nat := fun i => if i = p.index then start else line i
  have hstart : line' p.index = start := if_pos rfl
  have hsame : ∀ q ∈ ps,
      drawn g (changed page p.index (drawn g (page p.index) p.name start (blocks p.index)).1 q.index)
        q.name (line q.index) (blocks q.index) =
      drawn g (page q.index) q.name (line' q.index) (blocks q.index) := by
    intro q hq
    have hne : q.index ≠ p.index := fun he => hnot (he ▸ List.mem_map_of_mem hq)
    have hline : line' q.index = line q.index := if_neg hne
    rw [changed, if_neg hne, hline]
  change Fills g blocks (p :: ps) page line' page' _
  constructor
  case filled =>
    intro q hq
    rcases List.mem_cons.mp hq with rfl | hq
    · rw [h.others _ hnot, changed_self, hstart]
    · rw [h.filled q hq, hsame q hq]
  case others =>
    intro i hi
    have hps : i ∉ ps.map ProceduralPage.index := fun hm => hi (List.mem_cons_of_mem _ hm)
    have hne : i ≠ p.index := fun he => hi (he ▸ List.mem_cons_self)
    rw [h.others i hps, changed, if_neg hne]
  case told =>
    have htold := List.map_congr_left fun q hq => congrArg Prod.snd (hsame q hq)
    rw [h.told, List.flatMap_cons, hstart, List.flatMap_def, List.flatMap_def, htold]

/-- Reading the pages of a lambda, each with its own index, fills each of them and no other. -/
theorem Shows.drawPages {ps : List ProceduralPage} {blocks : Nat → List CodeBlock}
    (hbs : ∀ p ∈ ps, (∀ b ∈ blocks p.index, b.Readable) ∧
      p.body = (blocks p.index).flatMap CodeBlock.lines)
    (hindex : ∀ p ∈ ps, p.index < twoTo 64)
    (hdistinct : (ps.map ProceduralPage.index).Nodup) (h : r.Shows page known notices)
    (number : Nat) : ∃ (page' : Nat → Page) (line : Nat → Nat) (told : List Notice),
      (drawLines g number r ((ps.flatMap ProceduralDocument.pageLines).map Region.scanned)).Shows
        page' (fun i => i ∈ ps.map ProceduralPage.index ∨ known i) (notices ++ told) ∧
      Fills g blocks ps page line page' told := by
  induction ps generalizing r page known notices number with
  | nil =>
    refine ⟨page, fun _ => 0, [], ?_, .nil⟩
    rw [List.append_nil]
    exact h.congr (fun _ => rfl) fun i => by simp
  | cons p ps ih =>
    obtain ⟨hnot, hdistinct⟩ := List.nodup_cons.mp hdistinct
    obtain ⟨hblocks, hbody⟩ := hbs p List.mem_cons_self
    have hfirst := h.drawPage (g := g) hblocks hbody (hindex p List.mem_cons_self) number
    obtain ⟨page', line, told, hshows, hfills⟩ := ih
      (fun q hq => hbs q (List.mem_cons_of_mem p hq))
      (fun q hq => hindex q (List.mem_cons_of_mem p hq)) hdistinct hfirst
      (number + ((ProceduralDocument.pageLines p).map Region.scanned).length)
    refine ⟨page', _, _, ?_, hfills.cons hnot⟩
    rw [List.flatMap_cons, List.map_append, drawLines_append, ← List.append_assoc]
    refine hshows.congr (fun _ => rfl) fun i => ?_
    simp only [List.map_cons, List.mem_cons]
    exact ⟨fun hi => by grind, fun hi => by grind⟩

end Rebuild

end Dashboard
