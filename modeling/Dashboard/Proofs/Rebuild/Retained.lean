import Dashboard.Proofs.Rebuild.Document
import Dashboard.Proofs.Rebuild.Properties
/-!
# Rebuilding retained documents

Behind its sections, a retained document is one region, which reaches to its end. Only the lines that
start its pages tell the rebuild something: one line for each page, with its number.
-/

namespace Dashboard

open Text Number

namespace RetainedDocument

/-- No text of a document leaves its line, no line of a node starts a page, and the pages are numbered. -/
structure IsContained (d : RetainedDocument) : Prop where
  fonts : ∀ f ∈ d.fonts, OneLine f.family
  sensors : ∀ x ∈ d.sensors, OneLine x.id ∧ OneLine x.entityId ∧
    ∀ a ∈ x.actions, ∃ id, OneLine id ∧ a = "lvgl.widget.refresh: " ++ id
  ids : d.pages.map RetainedPage.id = (List.range d.pages.length).map fun i => "page_" ++ natText i
  inRange : d.pages.length ≤ twoTo 64
  nodes : ∀ p ∈ d.pages, ∀ n ∈ p.widgets, n.IsInert

/-- The sections before the pages. -/
def headLines (d : RetainedDocument) : List String :=
  FontRequest.sectionLines d.fonts ++ SensorDecl.sectionLines d.sensors

variable {d : RetainedDocument}

theorem isQuiet_headLines (hd : d.IsContained) : ∀ l ∈ d.headLines, ProceduralDocument.IsQuiet l := by
  refine List.forall_mem_append.mpr ⟨ProceduralDocument.isQuiet_fontLines hd.fonts,
    ProceduralDocument.isQuiet_sensorLines (fun x hx => ?_) none⟩
  obtain ⟨hid, hentity, hactions⟩ := hd.sensors x hx
  refine ⟨hid, hentity, fun a ha => ?_⟩
  obtain ⟨id, hline, rfl⟩ := hactions a ha
  rw [← String.append_assoc]
  exact ProceduralDocument.isQuiet_append (by decide) (by decide) (fun _ => rfl) hline

/-- The lines of a page behind its first one. -/
def bodyLines (p : RetainedPage) : List String :=
  if p.widgets.isEmpty then ["      widgets: []"] else "      widgets:" :: p.widgets.flatMap nodeLines

theorem isProperty_bodyLines {p : RetainedPage} (h : ∀ n ∈ p.widgets, n.IsInert) :
    ∀ l ∈ bodyLines p, Yaml.IsProperty l := by
  have hkey : ∀ s, OneLine s → Yaml.IsProperty (spaces 6 ++ ("widgets" ++ s)) := fun s hs =>
    Yaml.IsName.isProperty (by decide) (by omega) hs
  unfold bodyLines
  split
  · exact List.forall_mem_singleton.mpr (hkey ": []" (by decide))
  · refine List.forall_mem_cons.mpr ⟨hkey ":" (by decide), fun l hl => ?_⟩
    obtain ⟨n, hn, hl⟩ := List.mem_flatMap.mp hl
    exact isProperty_nodeLines (h n hn) l hl

end RetainedDocument

namespace Rebuild

variable {g : Registry} {r : Rebuild} {page : Nat → Page} {known : Nat → Prop} {notices : List Notice}

/-- Opens pages one after the other. -/
def openPages (indices : List Nat) (r : Rebuild) : Rebuild := indices.foldl (fun r i => r.openPage i) r

/-- A retained region opens the pages that its lines name. -/
theorem readLines_retained {region : OpenRegion} {indent : Nat} (hretained : region.region = .retained)
    (hindent : region.indent = some indent) (hpos : 0 < indent) {ls : List String}
    (h : ∀ l ∈ ls, Region.Reaches indent l) (number : Nat) (r : Rebuild) :
    readLines g (some region) number r ls = r.openPages (ls.filterMap fun l => retainedPage? l.toList) := by
  induction ls generalizing number r with
  | nil => rfl
  | cons l ls ih =>
    have hnext := OpenRegion.next?_of_reaches hindent hpos (h l List.mem_cons_self)
    have hrest := fun number r => ih (fun l' hl' => h l' (List.mem_cons_of_mem l hl')) number r
    rw [readLines]
    simp only [hnext, hretained]
    change readLines g (some region) (number + 1) (r.retainedLine ⟨some .retained, number, l⟩) ls = _
    rw [hrest, retainedLine]
    cases hpage : retainedPage? l.toList with
    | none => simp only [List.filterMap_cons, hpage]
    | some i => simp only [List.filterMap_cons, hpage, openPages, List.foldl_cons]

/-- The opener of the pages, with the line that fixes the indent of their region. -/
theorem readLines_pages {ls : List String} (h : ∀ l ∈ ls, Region.Reaches 2 l) (number : Nat) (r : Rebuild) :
    readLines g none number r ("lvgl:" :: "  pages:" :: ls) =
      r.openPages (ls.filterMap fun l => retainedPage? l.toList) := by
  have hopen : OpenRegion.next? none "lvgl:".toList = (none, some ⟨.retained, 0, none⟩) := by decide
  have hfirst : OpenRegion.next? (some ⟨.retained, 0, none⟩) "  pages:".toList =
      (some .retained, some ⟨.retained, 0, some 2⟩) := by decide
  have hsilent : retainedPage? "  pages:".toList = none := by decide
  rw [readLines]
  simp only [hopen]
  rw [readLines]
  simp only [hfirst]
  change readLines g _ (number + 1 + 1) (r.retainedLine ⟨some .retained, number + 1, "  pages:"⟩) ls = _
  rw [retainedLine, hsilent]
  exact readLines_retained rfl rfl (by decide) h _ r

theorem Shows.openPages (h : r.Shows page known notices) (indices : List Nat) :
    (r.openPages indices).Shows page (fun i => i ∈ indices ∨ known i) notices := by
  induction indices generalizing r known with
  | nil => exact h.congr (fun _ => rfl) fun i => by simp
  | cons i indices ih =>
    refine (ih (h.openPage i)).congr (fun _ => rfl) fun j => ?_
    rw [List.mem_cons]
    exact or_left_comm.trans or_assoc.symm

theorem retainedPage?_head {i : Nat} (h : i < twoTo 64) :
    retainedPage? (Region.scanned ("    - id: page_" ++ natText i)).toList = some i := by
  have hdecimal : ∀ c ∈ digitsOf i, isDecimal c = true := fun c hc =>
    isDecimal_of_isDigit (isDigit_of_mem_digitsOf hc)
  have hdigits : (digitsOf i).takeWhile isDecimal = digitsOf i := by
    rw [← List.append_nil (digitsOf i), List.takeWhile_append_of_pos hdecimal, List.takeWhile_nil]
  have hwords : afterWords? ["-", "id:", "page_"] ("    - id: page_".toList ++ digitsOf i) =
      some (digitsOf i) := rfl
  have hline : (Region.scanned ("    - id: page_" ++ natText i)).toList = "    - id: page_".toList ++ digitsOf i := by
    rw [Region.scanned_append (by decide), Region.scanned_eq (Region.isClean_natText i), natText]
    exact congrArg _ String.toList_ofList
  rw [hline, retainedPage?, hwords, Option.bind_eq_bind, Option.bind_some, hdigits]
  exact readNat?_digitsOf h

/-- A page names itself in its first line and no other page behind it. -/
theorem filterMap_pageLines {p : RetainedPage} {i : Nat} (hid : p.id = "page_" ++ natText i) (hi : i < twoTo 64)
    (hnodes : ∀ n ∈ p.widgets, n.IsInert) :
    ((RetainedDocument.pageLines p).map Region.scanned).filterMap (fun l => retainedPage? l.toList) = [i] := by
  have hbody : ((RetainedDocument.bodyLines p).map Region.scanned).filterMap (fun l => retainedPage? l.toList) =
      [] := by
    refine List.filterMap_eq_nil_iff.mpr fun l hl => ?_
    obtain ⟨l', hl', rfl⟩ := List.mem_map.mp hl
    exact (RetainedDocument.isProperty_bodyLines hnodes l' hl').silent
  have hhead : "    - id: " ++ p.id = "    - id: page_" ++ natText i := by
    rw [hid, ← String.append_assoc]
    rfl
  have hlines : RetainedDocument.pageLines p = ("    - id: page_" ++ natText i) :: RetainedDocument.bodyLines p := by
    rw [RetainedDocument.pageLines, hhead]
    rfl
  rw [hlines, List.map_cons, List.filterMap_cons, retainedPage?_head hi, hbody]

end Rebuild

namespace RetainedDocument

variable {g : Registry} {d : RetainedDocument}

theorem text_eq (d : RetainedDocument) :
    d.text = unlines (d.headLines ++ "lvgl:" :: "  pages:" :: d.pages.flatMap pageLines) := by
  simp only [text, headLines, List.append_assoc, List.cons_append, List.nil_append]

/-- A page in the description of the pages, where no line leaves the region. -/
theorem isIndented_pageLines {p : RetainedPage} {i : Nat} (hid : p.id = "page_" ++ natText i)
    (hnodes : ∀ n ∈ p.widgets, n.IsInert) :
    ∀ l ∈ pageLines p, OneLine l ∧ Region.Reaches 2 (Region.scanned l) := by
  refine List.forall_mem_cons.mpr ⟨⟨?_, ?_⟩, fun l hl => ?_⟩
  · rw [hid]
    exact (by decide : OneLine "    - id: ").append ((by decide : OneLine "page_").append (oneLine_natText i))
  · have hhead : "    - id: " = spaces 4 ++ "- id: " := rfl
    rw [hhead, String.append_assoc]
    exact Region.reaches_spaces (by decide) _
  · exact ⟨(isProperty_bodyLines hnodes l hl).oneLine, (isProperty_bodyLines hnodes l hl).reaches⟩

namespace IsContained

theorem exists_index (hd : d.IsContained) {p : RetainedPage} (hp : p ∈ d.pages) :
    ∃ i, p.id = "page_" ++ natText i := by
  have hmem : p.id ∈ d.pages.map RetainedPage.id := List.mem_map_of_mem hp
  rw [hd.ids] at hmem
  obtain ⟨i, -, hid⟩ := List.mem_map.mp hmem
  exact ⟨i, hid.symm⟩

theorem isIndented (hd : d.IsContained) :
    ∀ l ∈ d.pages.flatMap pageLines, OneLine l ∧ Region.Reaches 2 (Region.scanned l) := by
  intro l hl
  obtain ⟨p, hp, hl⟩ := List.mem_flatMap.mp hl
  obtain ⟨i, hid⟩ := hd.exists_index hp
  exact isIndented_pageLines hid (hd.nodes p hp) l hl

theorem oneLine (hd : d.IsContained) :
    ∀ l ∈ d.headLines ++ "lvgl:" :: "  pages:" :: d.pages.flatMap pageLines, OneLine l := by
  refine List.forall_mem_append.mpr ⟨fun l hl => (isQuiet_headLines hd l hl).1, ?_⟩
  exact List.forall_mem_cons.mpr ⟨by decide, List.forall_mem_cons.mpr ⟨by decide, fun l hl => (hd.isIndented l hl).1⟩⟩

end IsContained

/-- The pages of a contained document name themselves in order. -/
theorem filterMap_pages {ps : List RetainedPage} {first : Nat}
    (hids : ps.map RetainedPage.id = (List.range' first ps.length).map fun i => "page_" ++ natText i)
    (hrange : first + ps.length ≤ twoTo 64) (hnodes : ∀ p ∈ ps, ∀ n ∈ p.widgets, n.IsInert) :
    ((ps.flatMap pageLines).map Region.scanned).filterMap (fun l => Rebuild.retainedPage? l.toList) =
      List.range' first ps.length := by
  induction ps generalizing first with
  | nil => rfl
  | cons p ps ih =>
    rw [List.length_cons] at hids hrange
    rw [List.range'_succ, List.map_cons, List.map_cons] at hids
    obtain ⟨hid, hids⟩ := List.cons.inj hids
    have hpage := Rebuild.filterMap_pageLines hid (by omega) (hnodes p List.mem_cons_self)
    have hrest := ih hids (by omega) fun p' hp' => hnodes p' (List.mem_cons_of_mem p hp')
    rw [List.flatMap_cons, List.map_append, List.filterMap_append, hpage, hrest, List.length_cons, List.range'_succ]
    rfl

/-- A contained document is rebuilt into empty pages, as many as it has, without a notice. -/
theorem ofConfiguration_text (hd : d.IsContained) (hne : d.pages ≠ []) :
    Layout.ofConfiguration g d.text = ({ pages := (List.range d.pages.length).map Page.make }, []) := by
  have hquiet : ∀ l ∈ d.headLines.map Region.scanned, Region.ofOpener? l.toList = none :=
    List.forall_mem_map.mpr fun l hl => (isQuiet_headLines hd l hl).2
  have hreach : ∀ l ∈ (d.pages.flatMap pageLines).map Region.scanned, Region.Reaches 2 l :=
    List.forall_mem_map.mpr fun l hl => (hd.isIndented l hl).2
  have hindices := filterMap_pages (List.range_eq_range' ▸ hd.ids) (by simpa using hd.inRange) hd.nodes
  have hknown : ∀ i, i ∈ List.range' 0 d.pages.length ∨ False ↔ i < d.pages.length := by simp
  have hshows := Rebuild.shows_start.openPages (List.range' 0 d.pages.length)
  have hopener : Region.scanned "lvgl:" = "lvgl:" := Region.scanned_eq (by decide)
  have hfirst : Region.scanned "  pages:" = "  pages:" := Region.scanned_eq (by decide)
  rw [Layout.ofConfiguration, text_eq, Rebuild.run_unlines hd.oneLine, List.map_append, Rebuild.readLines_outside hquiet,
    List.map_cons, List.map_cons, hopener, hfirst, Rebuild.readLines_pages hreach, hindices]
  exact hshows.layout (List.length_pos_iff.mpr hne) hknown

end RetainedDocument

end Dashboard
