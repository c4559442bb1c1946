import Dashboard.Proofs.Rebuild.Sections
/-!
# Reading a whole document

A contained document is rebuilt into its own pages: each with its refresh interval, its name and
the widgets of its markers.
-/

namespace Dashboard

open Text Number

/-! ## The script of the refresh intervals -/

namespace ProceduralDocument

theorem refreshCase_eq (e : Nat × UInt32) : refreshCase e = spaces 12 ++ ("case " ++ (natText e.1 ++
    (": interval = " ++ (natText e.2.toNat ++ "; break;")))) := by
  have hstart : "            case " = spaces 12 ++ "case " := by decide
  unfold refreshCase
  rw [hstart]
  simp only [String.append_assoc]

/-- The line of an interval is read as this interval. -/
theorem ofLine_refreshCase {e : Nat × UInt32} (h : e.1 < twoTo 64) :
    Statement.ofLine (Region.scanned (refreshCase e)) = .interval e.1 e.2 := by
  have hclean : Region.IsClean ("case " ++ (natText e.1 ++ (": interval = " ++
      (natText e.2.toNat ++ "; break;")))) :=
    .append (by decide) (.append (Region.isClean_natText _) (.append (by decide)
      (.append (Region.isClean_natText _) (by decide))))
  have hchars : "case " ++ (natText e.1 ++ (": interval = " ++ (natText e.2.toNat ++ "; break;"))) =
      String.ofList ("case ".toList ++ (digitsOf e.1 ++ (": interval = ".toList ++
        (digitsOf e.2.toNat ++ "; break;".toList)))) := by
    apply String.toList_inj.mp
    simp [natText]
  rw [refreshCase_eq, Statement.ofLine_scanned, Region.scanned_eq hclean, hchars]
  exact Statement.ofLine_interval h e.2

end ProceduralDocument

namespace Rebuild

variable {g : Registry} {r : Rebuild} {page : Nat → Page} {known : Nat → Prop}
  {notices : List Notice}

/-- Pages with the refresh intervals of a list. -/
def refreshed (page : Nat → Page) (refreshes : List (Nat × UInt32)) (i : Nat) : Page :=
  match refreshes.lookup i with
  | some seconds => { page i with refreshSeconds := some seconds }
  | none => page i

theorem lookup_eq_none {refreshes : List (Nat × UInt32)} {i : Nat} (h : i ∉ refreshes.map Prod.fst) :
    refreshes.lookup i = none := by
  rw [List.lookup_eq_none_iff]
  intro e he
  have hne : i ≠ e.1 := fun heq => h (heq ▸ List.mem_map_of_mem he)
  simpa using hne

theorem refreshed_of_not_mem {refreshes : List (Nat × UInt32)} {i : Nat} (h : i ∉ refreshes.map Prod.fst) :
    refreshed page refreshes i = page i := by
  rw [refreshed, lookup_eq_none h]

theorem refreshed_cons {index : Nat} {seconds : UInt32} {refreshes : List (Nat × UInt32)}
    (h : index ∉ refreshes.map Prod.fst) (i : Nat) :
    refreshed (changed page index { page index with refreshSeconds := some seconds }) refreshes i =
      refreshed page ((index, seconds) :: refreshes) i := by
  by_cases hi : i = index
  · subst hi
    rw [refreshed_of_not_mem h, changed_self, refreshed, List.lookup_cons_self]
  · have hne : (i == index) = false := by simpa using hi
    simp [refreshed, List.lookup_cons, hne, changed, hi]

theorem Shows.drawRefreshes {refreshes : List (Nat × UInt32)}
    (hindex : ∀ e ∈ refreshes, e.1 < twoTo 64) (hdistinct : (refreshes.map Prod.fst).Nodup)
    (h : r.Shows page known notices) (number : Nat) :
    let r' := drawLines g number r
      ((refreshes.map ProceduralDocument.refreshCase).map Region.scanned)
    r'.Shows (refreshed page refreshes) (fun i => i ∈ refreshes.map Prod.fst ∨ known i) notices ∧
      r'.current = r.current ∧ r'.inBody = r.inBody := by
  induction refreshes generalizing r page known number with
  | nil => exact ⟨h.congr (fun _ => rfl) fun i => by simp, rfl, rfl⟩
  | cons e refreshes ih =>
    obtain ⟨index, seconds⟩ := e
    obtain ⟨hnot, hdistinct⟩ := List.nodup_cons.mp hdistinct
    have hline := ProceduralDocument.ofLine_refreshCase (hindex (index, seconds) List.mem_cons_self)
    have hfirst := h.changePage index fun p => { p with refreshSeconds := some seconds }
    obtain ⟨hshows, hcurrent, hbody⟩ := ih (fun e he => hindex e (List.mem_cons_of_mem _ he))
      hdistinct hfirst (number + 1)
    rw [List.map_cons, List.map_cons, drawLines, drawingLine_interval hline]
    refine ⟨hshows.congr (refreshed_cons hnot) fun i => ?_, hcurrent, hbody⟩
    simp only [List.map_cons, List.mem_cons]
    grind

theorem Shows.drawPlains (h : r.Shows page known notices) (hk : known r.current) (ls : List String)
    (hls : ∀ l ∈ ls, ∃ n cs, Region.scanned l = String.ofList (List.replicate n ' ' ++ cs) ∧
      Statement.IsPlain false cs) (number : Nat) :
    let r' := drawLines g number r (ls.map Region.scanned)
    r'.Shows page known notices ∧ r'.current = r.current := by
  induction ls generalizing r number with
  | nil => exact ⟨h, rfl⟩
  | cons l ls ih =>
    obtain ⟨n, cs, hline, hplain⟩ := hls l List.mem_cons_self
    obtain ⟨hshows, hcurrent, -⟩ := h.drawPlain (g := g) hplain number (n := n)
    have hsame := hshows.congr (fun _ => rfl) fun i =>
      ⟨fun hi => hi.elim (fun he => he ▸ hk) fun hi => hi, Or.inr⟩
    have hrest := ih hsame (by rwa [hcurrent]) (fun l' hl' => hls l' (List.mem_cons_of_mem l hl'))
      (number + 1)
    rw [List.map_cons, drawLines, hline]
    exact ⟨hrest.1, hrest.2.trans hcurrent⟩

end Rebuild

namespace ProceduralDocument

variable {d : ProceduralDocument}

/-- A line that is indented and says nothing. -/
structure IsFiller (column : Nat) (l : String) : Prop where
  oneLine : OneLine l
  reaches : Region.Reaches column (Region.scanned l)
  plain : ∃ n cs, Region.scanned l = String.ofList (List.replicate n ' ' ++ cs) ∧
    Statement.IsPlain false cs

theorem isFiller_of_isPlain {column n : Nat} (hn : column ≤ n) {s : String} (hs : OneLine s)
    (h : Statement.IsPlain false (Region.scanned s).toList) : IsFiller column (spaces n ++ s) where
  oneLine := (OneLine.spaces n).append hs
  reaches := Region.reaches_spaces hn s
  plain := ⟨n, _, Region.scanned_spaces n s, h⟩

theorem isFiller_blank (column : Nat) : IsFiller column "" where
  oneLine := by decide
  reaches := .inl rfl
  plain := ⟨0, [], rfl, Statement.isPlain_blank⟩

theorem isFiller_colorLine {c : String × Rgb} (hc : OneLine c.1) :
    IsFiller Block.lambdaColumn (colorLine c) := by
  have hwritten : colorLine c = spaces Block.lambdaColumn ++ ("const auto " ++ (c.1 ++ (" = Color(" ++
      (byteText c.2.red ++ (", " ++ (byteText c.2.green ++ (", " ++
        (byteText c.2.blue ++ ");")))))))) := by
    unfold colorLine
    simp only [String.append_assoc]
  have hbytes : ∀ n, OneLine (byteText n) := fun n => oneLine_natText _
  rw [hwritten]
  refine isFiller_of_isPlain (Nat.le_refl _) ?_ ?_
  · exact .append (by decide) (.append hc (.append (by decide) (.append (hbytes _) (.append (by decide)
      (.append (hbytes _) (.append (by decide) (.append (hbytes _) (by decide))))))))
  · rw [Region.scanned_append (by decide)]
    exact Statement.isPlain_constant _

/-- The code of the script after its first line. -/
def scriptCode (d : ProceduralDocument) : List String :=
  ["          switch (id(" ++ d.options.pageGlobal ++ ")) \x7b"] ++ d.refreshes.map refreshCase ++
    ["          \x7d", "          id(page_refresh_interval) = interval;", ""]

def scriptFirst (d : ProceduralDocument) : String :=
  "          int interval = " ++ natText d.options.refreshSeconds.toNat ++ ";"

/-- The lines of the script, if a page has an interval. -/
theorem scriptLines_eq (h : d.refreshes ≠ []) : d.scriptLines =
    ["script:", "  - id: page_refresh", "    then:"] ++ "      - lambda: |-" :: d.scriptFirst :: d.scriptCode := by
  have hne : d.refreshes.isEmpty = false := by simpa using h
  unfold scriptLines scriptFirst
  rw [hne, if_neg Bool.false_ne_true, scriptCode]
  simp only [List.cons_append, List.nil_append]

theorem exists_toList_scriptFirst (d : ProceduralDocument) :
    ∃ cs, (Region.scanned d.scriptFirst).toList = "          int interval = ".toList ++ cs := by
  unfold scriptFirst
  rw [String.append_assoc]
  exact ⟨_, Region.scanned_append (by decide) _⟩

def scriptColumn : Nat := 10

theorem isFiller_scriptFirst : IsFiller scriptColumn d.scriptFirst := by
  have hstart : "          int interval = " = spaces scriptColumn ++ ("int " ++ "interval = ") := by
    decide
  unfold scriptFirst
  rw [hstart]
  simp only [String.append_assoc]
  refine isFiller_of_isPlain (Nat.le_refl _) ?_ ?_
  · exact .append (by decide) (.append (by decide) (.append (oneLine_natText _) (by decide)))
  · rw [Region.scanned_append (by decide)]
    exact Statement.isPlain_declaration _

theorem isFiller_switch (hd : d.IsContained) :
    IsFiller scriptColumn ("          switch (id(" ++ d.options.pageGlobal ++ ")) \x7b") := by
  have hstart : "          switch (id(" = spaces scriptColumn ++ ("switch (" ++ "id(") := by decide
  rw [hstart]
  simp only [String.append_assoc]
  refine isFiller_of_isPlain (Nat.le_refl _) ?_ ?_
  · exact .append (by decide) (.append (by decide) (.append hd.options.pageGlobal (by decide)))
  · rw [Region.scanned_append (by decide)]
    exact Statement.isPlain_switch _

theorem isFiller_assignment :
    IsFiller scriptColumn "          id(page_refresh_interval) = interval;" := by
  have hwritten : "          id(page_refresh_interval) = interval;" =
      spaces scriptColumn ++ ("id(page_refresh" ++ "_interval) = interval;") := by decide
  rw [hwritten]
  refine isFiller_of_isPlain (Nat.le_refl _) (by decide) ?_
  rw [Region.scanned_append (by decide)]
  exact Statement.isPlain_assignment _

end ProceduralDocument

namespace Rebuild

variable {g : Registry} {r : Rebuild} {page : Nat → Page} {known : Nat → Prop}
  {notices : List Notice} {d : ProceduralDocument}

theorem Shows.drawScript (hd : d.IsContained) (hindex : ∀ e ∈ d.refreshes, e.1 < twoTo 64)
    (hdistinct : (d.refreshes.map Prod.fst).Nodup) (h : r.Shows page known notices) (number : Nat) :
    let r' := drawLines g number r ((d.scriptFirst :: d.scriptCode).map Region.scanned)
    r'.Shows (refreshed page d.refreshes)
      (fun i => i ∈ d.refreshes.map Prod.fst ∨ i = r.current ∨ known i) notices ∧
      r'.current = r.current := by
  obtain ⟨n, cs, hline, hplain⟩ := (ProceduralDocument.isFiller_scriptFirst (d := d)).plain
  obtain ⟨hfirst, hcurrent, -⟩ := h.drawPlain (g := g) hplain number (n := n)
  obtain ⟨hswitch, hcurrent₁⟩ := hfirst.drawPlains (g := g) (.inl hcurrent)
    ["          switch (id(" ++ d.options.pageGlobal ++ ")) \x7b"]
    (by simpa using (ProceduralDocument.isFiller_switch hd).plain) (number + 1)
  obtain ⟨hrefreshed, hcurrent₂, -⟩ := hswitch.drawRefreshes (g := g) hindex hdistinct (number + 1 + 1)
  have hk : ∀ {i}, i = r.current → i ∈ d.refreshes.map Prod.fst ∨ i = r.current ∨ known i :=
    fun hi => .inr (.inl hi)
  have hcurrent₃ := hcurrent₂.trans (hcurrent₁.trans hcurrent)
  obtain ⟨hclosed, hcurrent₄⟩ := hrefreshed.drawClose (g := g) (hk hcurrent₃)
    ProceduralDocument.scriptColumn (number + 1 + 1 + d.refreshes.length)
  obtain ⟨hend, hcurrent₅⟩ := hclosed.drawPlains (g := g) (hk (hcurrent₄.trans hcurrent₃))
    ["          id(page_refresh_interval) = interval;", ""] (by
      simp only [List.forall_mem_cons, List.not_mem_nil, false_implies, implies_true, and_true]
      exact ⟨ProceduralDocument.isFiller_assignment.plain,
        (ProceduralDocument.isFiller_blank ProceduralDocument.scriptColumn).plain⟩)
    (number + 1 + 1 + d.refreshes.length + 1)
  have hclose : Region.scanned "          \x7d" =
      Region.scanned (spaces ProceduralDocument.scriptColumn ++ "\x7d") := by decide
  have hlines : (d.scriptFirst :: d.scriptCode).map Region.scanned =
      Region.scanned d.scriptFirst ::
        (["          switch (id(" ++ d.options.pageGlobal ++ ")) \x7b"].map Region.scanned ++
          ((d.refreshes.map ProceduralDocument.refreshCase).map Region.scanned ++
            (Region.scanned (spaces ProceduralDocument.scriptColumn ++ "\x7d") ::
              ["          id(page_refresh_interval) = interval;", ""].map Region.scanned))) := by
    rw [← hclose, ProceduralDocument.scriptCode]
    simp only [List.map_append, List.map_cons, List.map_nil, List.cons_append, List.nil_append]
  intro r'
  change (drawLines g number r ((d.scriptFirst :: d.scriptCode).map Region.scanned)).Shows _ _ _ ∧
    (drawLines g number r ((d.scriptFirst :: d.scriptCode).map Region.scanned)).current = _
  rw [hlines, drawLines, hline, drawLines_append, drawLines_append, drawLines, List.length_map,
    List.length_map, List.length_map, List.length_singleton]
  exact ⟨hend, hcurrent₅.trans (hcurrent₄.trans hcurrent₃)⟩

theorem scriptLines_reach (hd : d.IsContained) :
    ∀ l ∈ d.scriptCode.map Region.scanned, Region.Reaches ProceduralDocument.scriptColumn l := by
  have hcase : ∀ e, Region.Reaches ProceduralDocument.scriptColumn
      (Region.scanned (ProceduralDocument.refreshCase e)) := by
    intro e
    rw [ProceduralDocument.refreshCase_eq]
    exact Region.reaches_spaces (by decide) _
  have hclose : Region.Reaches ProceduralDocument.scriptColumn (Region.scanned "          \x7d") :=
    .inr (by decide)
  simp only [ProceduralDocument.scriptCode, List.forall_mem_map, List.forall_mem_append,
    List.forall_mem_cons, List.not_mem_nil, false_implies, implies_true, and_true]
  exact ⟨⟨(ProceduralDocument.isFiller_switch hd).reaches, fun e _ => hcase e⟩, hclose,
    ProceduralDocument.isFiller_assignment.reaches, (ProceduralDocument.isFiller_blank _).reaches⟩

/-- After the script, if there is one, the pages have their intervals and nothing else. -/
theorem readLines_scriptLines (hd : d.IsContained) (hindex : ∀ e ∈ d.refreshes, e.1 < twoTo 64)
    (hdistinct : (d.refreshes.map Prod.fst).Nodup) (number : Nat) (rest : List String) :
    ∃ (r : Rebuild) (number' : Nat) (known : Nat → Prop),
      readLines g none number {}
          (d.scriptLines.map Region.scanned ++ Region.scanned "display:" :: rest) =
        readLines g none number' r rest ∧
      r.Shows (refreshed Page.make d.refreshes) known [] ∧ r.current = 0 ∧
      ∀ i, known i → i = 0 ∨ i ∈ d.refreshes.map Prod.fst := by
  have hquiet : ∀ l ∈ [Region.scanned "display:"], Region.ofOpener? l.toList = none := by
    rw [List.forall_mem_singleton]
    decide
  have hdisplay : ∀ (number : Nat) (r : Rebuild), readLines g none number r
      (Region.scanned "display:" :: rest) = readLines g none (number + 1) r rest := fun number r =>
    readLines_outside hquiet number r rest
  by_cases hempty : d.refreshes = []
  · refine ⟨{}, number + 1, fun _ => False, ?_, ?_, rfl, fun _ h => h.elim⟩
    · rw [ProceduralDocument.scriptLines, hempty, List.isEmpty_nil, if_pos rfl]
      exact hdisplay number {}
    · exact shows_start.congr (fun i => by rw [hempty]; rfl) fun _ => Iff.rfl
  · obtain ⟨cs, hcs⟩ := ProceduralDocument.exists_toList_scriptFirst d
    have hindent : Region.indentOf (Region.scanned d.scriptFirst).toList =
        ProceduralDocument.scriptColumn := by rw [hcs]; rfl
    have hopener : Region.indentOf (Region.scanned "      - lambda: |-").toList <
        Region.indentOf (Region.scanned d.scriptFirst).toList := by rw [hindent]; decide
    obtain ⟨region, -, hregion⟩ := readLines_drawing (g := g)
      (Region.scanned "      - lambda: |-") (by decide) hopener hindent (by rw [hcs]; rfl)
      (scriptLines_reach hd) (number + 3) {} (Region.scanned "display:" :: rest)
    obtain ⟨hshows, hcurrent⟩ := shows_start.drawScript (g := g) hd hindex hdistinct (number + 3 + 1)
    rw [ProceduralDocument.scriptLines_eq hempty, List.map_append, List.append_assoc,
      readLines_outside (by decide), List.length_map]
    refine ⟨_, _, _, hregion.trans (readLines_rootKey (by decide) (by decide) (by decide) _ _ _),
      hshows, hcurrent, fun i hi => ?_⟩
    rcases hi with hi | hi | hi
    · exact .inr hi
    · exact .inl hi
    · exact hi.elim

/-! ## The display -/

/-- The pages of a document have their places as indices, and the indices are in range. -/
structure IsNumbered (ps : List ProceduralPage) : Prop where
  indices : ps.map ProceduralPage.index = List.range ps.length
  inRange : ps.length ≤ twoTo 64

theorem IsNumbered.index_lt {ps : List ProceduralPage} (h : IsNumbered ps) {p : ProceduralPage}
    (hp : p ∈ ps) : p.index < ps.length := by
  have hmem : p.index ∈ ps.map ProceduralPage.index := List.mem_map_of_mem hp
  rwa [h.indices, List.mem_range] at hmem

theorem IsNumbered.nodup {ps : List ProceduralPage} (h : IsNumbered ps) :
    (ps.map ProceduralPage.index).Nodup := h.indices ▸ List.nodup_range

/-- The intervals of the pages that have one. -/
def intervals (ps : List ProceduralPage) : List (Nat × UInt32) :=
  ps.filterMap fun p => p.refreshSeconds.map fun s => (p.index, s)

theorem intervals_sublist (ps : List ProceduralPage) :
    ((intervals ps).map Prod.fst).Sublist (ps.map ProceduralPage.index) := by
  induction ps with
  | nil => exact .slnil
  | cons p ps ih =>
    cases hp : p.refreshSeconds with
    | none => simpa [intervals, hp] using ih.cons p.index
    | some s => simpa [intervals, hp] using ih.cons_cons p.index

theorem lookup_intervals {ps : List ProceduralPage} (h : (ps.map ProceduralPage.index).Nodup)
    {p : ProceduralPage} (hp : p ∈ ps) : (intervals ps).lookup p.index = p.refreshSeconds := by
  induction ps with
  | nil => exact absurd hp List.not_mem_nil
  | cons q ps ih =>
    obtain ⟨hnot, hnodup⟩ := List.nodup_cons.mp h
    have hnone : (intervals ps).lookup q.index = none :=
      lookup_eq_none fun hmem => hnot ((intervals_sublist ps).subset hmem)
    rcases List.mem_cons.mp hp with rfl | hp
    · cases hs : p.refreshSeconds with
      | none => simpa [intervals, hs] using hnone
      | some s => simp [intervals, hs]
    · have hne : p.index ≠ q.index := fun he => hnot (he ▸ List.mem_map_of_mem hp)
      have hbeq : (p.index == q.index) = false := by simpa using hne
      have hrest := ih hnodup hp
      cases hs : q.refreshSeconds with
      | none => simpa [intervals, hs] using hrest
      | some s => simpa [intervals, hs, List.lookup_cons, hbeq] using hrest

theorem refreshed_intervals {ps : List ProceduralPage} (h : (ps.map ProceduralPage.index).Nodup)
    {p : ProceduralPage} (hp : p ∈ ps) :
    refreshed Page.make (intervals ps) p.index =
      { Page.make p.index with refreshSeconds := p.refreshSeconds } := by
  rw [refreshed, lookup_intervals h hp]
  cases p.refreshSeconds <;> rfl

/-- The blocks of the pages are readable and make up the bodies. -/
def HasBlocks (blocks : Nat → List CodeBlock) (ps : List ProceduralPage) : Prop :=
  ∀ p ∈ ps, (∀ b ∈ blocks p.index, b.Readable) ∧
    p.body = (blocks p.index).flatMap CodeBlock.lines

theorem pageLines_reach {blocks : Nat → List CodeBlock} {ps : List ProceduralPage}
    (h : HasBlocks blocks ps) {p : ProceduralPage} (hp : p ∈ ps) :
    ∀ l ∈ ProceduralDocument.pageLines p, OneLine l ∧
      Region.Reaches Block.lambdaColumn (Region.scanned l) := by
  obtain ⟨hreadable, hbody⟩ := h p hp
  have hcode : ∀ l ∈ p.body, OneLine l ∧ Region.Reaches Block.lambdaColumn (Region.scanned l) := by
    intro l hl
    rw [hbody] at hl
    obtain ⟨b, hb, hl⟩ := List.mem_flatMap.mp hl
    rcases List.mem_cons.mp hl with rfl | hl
    · exact ⟨(hreadable b hb).first.oneLine, (hreadable b hb).first.reaches⟩
    · exact ⟨((hreadable b hb).code l hl).oneLine, ((hreadable b hb).code l hl).reaches⟩
  have htest : OneLine (spaces Block.lambdaColumn ++ "if (page == " ++ natText p.index ++ ") \x7b") :=
    (((OneLine.spaces _).append (by decide)).append (oneLine_natText _)).append (by decide)
  have hname : OneLine (spaces Block.pageColumn ++ "// page:name " ++ literal p.name) :=
    ((OneLine.spaces _).append (by decide)).append (.literal p.name)
  simp only [ProceduralDocument.pageLines, List.forall_mem_append, List.forall_mem_cons,
    List.not_mem_nil, false_implies, implies_true, and_true]
  refine ⟨⟨⟨⟨htest, ?_⟩, hname, ?_⟩, hcode⟩, (OneLine.spaces _).append (by decide), ?_⟩
  · rw [String.append_assoc, String.append_assoc]
    exact Region.reaches_spaces (Nat.le_refl _) _
  · rw [String.append_assoc]
    exact Region.reaches_spaces (by decide) _
  · exact Region.reaches_spaces (Nat.le_refl _) _

def displayFirst (d : ProceduralDocument) : String :=
  spaces Block.lambdaColumn ++ "int page = id(" ++ d.options.pageGlobal ++ ");"

theorem isFiller_displayFirst (hd : d.IsContained) :
    ProceduralDocument.IsFiller Block.lambdaColumn (displayFirst d) := by
  have hstart : "int page = id(" = "int " ++ "page = id(" := by decide
  rw [displayFirst, hstart]
  simp only [String.append_assoc]
  refine ProceduralDocument.isFiller_of_isPlain (Nat.le_refl _) ?_ ?_
  · exact .append (by decide) (.append (by decide) (.append hd.options.pageGlobal (by decide)))
  · rw [Region.scanned_append (by decide)]
    exact Statement.isPlain_declaration _

theorem toList_displayFirst (d : ProceduralDocument) : (Region.scanned (displayFirst d)).toList =
    List.replicate Block.lambdaColumn ' ' ++
      ("int page = id(".toList ++ (Region.scanned (d.options.pageGlobal ++ ");")).toList) := by
  rw [displayFirst, String.append_assoc, String.append_assoc, Region.toList_scanned_spaces,
    Region.scanned_append (by decide)]

/-- The lines of the display before its code. -/
def displayHead (d : ProceduralDocument) : List String :=
  ["  - platform: " ++ d.options.displayPlatform, "    id: " ++ d.options.displayId,
    "    update_interval: never"]

theorem isQuiet_displayHead (d : ProceduralDocument) :
    ∀ l ∈ (displayHead d).map Region.scanned, Region.ofOpener? l.toList = none := by
  simp only [displayHead, List.map_cons, List.map_nil, List.forall_mem_cons, List.not_mem_nil,
    false_implies, implies_true, and_true]
  refine ⟨?_, ?_, by decide⟩
  · rw [Region.scanned_append (by decide)]
    rfl
  · rw [Region.scanned_append (by decide)]
    rfl

/-- The code of the display after its first line. -/
def displayCode (d : ProceduralDocument) : List String :=
  d.colors.map ProceduralDocument.colorLine ++ d.pages.flatMap ProceduralDocument.pageLines

theorem displayCode_reach (hd : d.IsContained) {blocks : Nat → List CodeBlock}
    (hblocks : HasBlocks blocks d.pages) :
    ∀ l ∈ (displayCode d).map Region.scanned, Region.Reaches Block.lambdaColumn l := by
  simp only [displayCode, List.forall_mem_map, List.forall_mem_append]
  refine ⟨fun c hc => (ProceduralDocument.isFiller_colorLine (hd.colors c hc)).reaches, fun l hl => ?_⟩
  obtain ⟨p, hp, hl⟩ := List.mem_flatMap.mp hl
  exact (pageLines_reach hblocks hp l hl).2

theorem displayLines_eq (d : ProceduralDocument) :
    d.displayLines = "display:" :: (displayHead d ++
      "    lambda: |-" :: displayFirst d :: displayCode d) := by
  simp only [ProceduralDocument.displayLines, displayHead, displayFirst, displayCode, List.cons_append,
    List.nil_append]

/-- Reading the code of the display fills the pages. -/
theorem Shows.drawDisplay (hd : d.IsContained) {blocks : Nat → List CodeBlock}
    (hblocks : HasBlocks blocks d.pages) (hnumbered : IsNumbered d.pages)
    (h : r.Shows page known notices) (number : Nat) :
    ∃ (page' : Nat → Page) (line : Nat → Nat) (told : List Notice),
      (drawLines g number r ((displayFirst d :: displayCode d).map Region.scanned)).Shows page'
        (fun i => i ∈ d.pages.map ProceduralPage.index ∨ i = r.current ∨ known i) (notices ++ told) ∧
      Fills g blocks d.pages page line page' told := by
  obtain ⟨n, cs, hline, hplain⟩ := (isFiller_displayFirst hd).plain
  obtain ⟨hopened, hcurrent, -⟩ := h.drawPlain (g := g) hplain number (n := n)
  obtain ⟨hcolors, -⟩ := hopened.drawPlains (g := g) (.inl hcurrent) _
    (List.forall_mem_map.mpr fun c hc =>
      (ProceduralDocument.isFiller_colorLine (hd.colors c hc)).plain) (number + 1)
  obtain ⟨page', line, told, hshows, hfills⟩ := hcolors.drawPages (g := g) hblocks
    (fun p hp => Nat.lt_of_lt_of_le (hnumbered.index_lt hp) hnumbered.inRange) hnumbered.nodup
    (number + 1 + (d.colors.map ProceduralDocument.colorLine).length)
  refine ⟨page', line, told, ?_, hfills⟩
  rw [List.map_cons, displayCode, List.map_append, drawLines, hline, drawLines_append, List.length_map]
  exact hshows

theorem readLines_display (hd : d.IsContained) {blocks : Nat → List CodeBlock}
    (hblocks : HasBlocks blocks d.pages) (hnumbered : IsNumbered d.pages)
    (h : r.Shows page known []) (hcurrent : r.current = 0) (number : Nat) :
    ∃ (page' : Nat → Page) (line : Nat → Nat) (told : List Notice),
      (readLines g none number r (d.displayLines.tail.map Region.scanned)).Shows page'
        (fun i => i ∈ d.pages.map ProceduralPage.index ∨ i = 0 ∨ known i) told ∧
      Fills g blocks d.pages page line page' told := by
  have hindent : Region.indentOf (Region.scanned (displayFirst d)).toList = Block.lambdaColumn := by
    rw [toList_displayFirst]
    rfl
  have hcode : onlyBlank (Region.scanned (displayFirst d)).toList = false := by
    rw [toList_displayFirst]
    rfl
  obtain ⟨region, -, hregion⟩ := readLines_drawing (g := g) (Region.scanned "    lambda: |-") (by decide)
    (by rw [hindent]; decide) hindent hcode (displayCode_reach hd hblocks) (number + 3) r []
  obtain ⟨page', line, told, hshows, hfills⟩ :=
    h.drawDisplay (g := g) hd hblocks hnumbered (number + 3 + 1)
  refine ⟨page', line, told, ?_, hfills⟩
  rw [List.append_nil] at hregion
  rw [displayLines_eq, List.tail_cons, List.map_append, readLines_outside (isQuiet_displayHead d)]
  change (readLines g none (number + 3) r (Region.scanned "    lambda: |-" ::
    Region.scanned (displayFirst d) :: (displayCode d).map Region.scanned)).Shows _ _ _
  rw [hregion, readLines]
  rw [List.nil_append, hcurrent] at hshows
  exact hshows

theorem oneLine_scriptLines (hd : d.IsContained) : ∀ l ∈ d.scriptLines, OneLine l := by
  have hcase : ∀ e, OneLine (ProceduralDocument.refreshCase e) := by
    intro e
    unfold ProceduralDocument.refreshCase
    exact ((((OneLine.append (by decide) (oneLine_natText _)).append (by decide)).append
      (oneLine_natText _)).append (by decide))
  have hfirst := (ProceduralDocument.isFiller_scriptFirst (d := d)).oneLine
  have hswitch := (ProceduralDocument.isFiller_switch hd).oneLine
  unfold ProceduralDocument.scriptFirst at hfirst
  unfold ProceduralDocument.scriptLines
  split
  · exact fun l hl => absurd hl List.not_mem_nil
  · simp only [List.forall_mem_append, List.forall_mem_cons, List.forall_mem_map, List.not_mem_nil,
      false_implies, implies_true, and_true]
    exact ⟨⟨⟨by decide, by decide, by decide, by decide, hfirst, hswitch⟩, fun e _ => hcase e⟩,
      by decide, by decide, by decide⟩

theorem oneLine_displayLines (hd : d.IsContained) {blocks : Nat → List CodeBlock}
    (hblocks : HasBlocks blocks d.pages) : ∀ l ∈ d.displayLines, OneLine l := by
  rw [displayLines_eq]
  simp only [displayHead, displayCode, List.forall_mem_append, List.forall_mem_cons, List.forall_mem_map,
    List.not_mem_nil, false_implies, implies_true, and_true]
  refine ⟨by decide, ⟨.append (by decide) hd.options.displayPlatform,
    .append (by decide) hd.options.displayId, by decide⟩, by decide,
    (isFiller_displayFirst hd).oneLine,
    fun c hc => (ProceduralDocument.isFiller_colorLine (hd.colors c hc)).oneLine, ?_⟩
  intro l hl
  obtain ⟨p, hp, hl⟩ := List.mem_flatMap.mp hl
  exact (pageLines_reach hblocks hp l hl).1

theorem oneLine_documentLines (hd : d.IsContained) {blocks : Nat → List CodeBlock}
    (hblocks : HasBlocks blocks d.pages) : ∀ l ∈ d.documentLines, OneLine l := by
  have hlines : d.documentLines = d.headLines ++ d.scriptLines ++ d.displayLines := rfl
  rw [hlines]
  simp only [List.forall_mem_append]
  exact ⟨⟨fun l hl => (ProceduralDocument.isQuiet_headLines hd l hl).1, oneLine_scriptLines hd⟩,
    oneLine_displayLines hd hblocks⟩

/-- A page as a document declares it, before its widgets. -/
def declared (p : ProceduralPage) : Page :=
  { Page.make p.index with refreshSeconds := p.refreshSeconds }

/-- After the head and the script of a document its display fills the pages, which have their intervals by then. -/
theorem run_text (hd : d.IsContained) {blocks : Nat → List CodeBlock}
    (hblocks : HasBlocks blocks d.pages) (hnumbered : IsNumbered d.pages) :
    ∃ (page : Nat → Page) (line : Nat → Nat) (told : List Notice),
      (run g d.text).Shows page (fun i => i ∈ d.pages.map ProceduralPage.index ∨ i = 0) told ∧
      Fills g blocks d.pages (refreshed Page.make d.refreshes) line page told := by
  have hindices : d.refreshes.map Prod.fst ⊆ d.pages.map ProceduralPage.index :=
    (intervals_sublist d.pages).subset
  have hrange : ∀ e ∈ d.refreshes, e.1 < twoTo 64 := by
    intro e he
    obtain ⟨p, hp, heq⟩ := List.mem_map.mp (hindices (List.mem_map_of_mem he))
    exact heq ▸ Nat.lt_of_lt_of_le (hnumbered.index_lt hp) hnumbered.inRange
  have hdistinct : (d.refreshes.map Prod.fst).Nodup := hnumbered.nodup.sublist (intervals_sublist d.pages)
  obtain ⟨r, number, known, hread, hshows, hcurrent, hknown⟩ :=
    readLines_scriptLines (g := g) hd hrange hdistinct (1 + d.headLines.length)
      (d.displayLines.tail.map Region.scanned)
  obtain ⟨page, line, told, hdisplay, hfills⟩ :=
    readLines_display (g := g) hd hblocks hnumbered hshows hcurrent number
  refine ⟨page, line, told, ?_, hfills⟩
  have hsame : ∀ i, i ∈ d.pages.map ProceduralPage.index ∨ i = 0 ∨ known i ↔
      i ∈ d.pages.map ProceduralPage.index ∨ i = 0 := by
    refine fun i => ⟨fun hi => ?_, fun hi => hi.imp_right .inl⟩
    rcases hi with hi | hi | hi
    · exact .inl hi
    · exact .inr hi
    · exact (hknown i hi).elim .inr fun hmem => .inl (hindices hmem)
  have hlines : d.documentLines = d.headLines ++ (d.scriptLines ++ d.displayLines) :=
    List.append_assoc _ _ _
  have htail : d.displayLines.map Region.scanned =
      Region.scanned "display:" :: d.displayLines.tail.map Region.scanned := by
    rw [displayLines_eq]
    rfl
  have hquiet : ∀ l ∈ d.headLines.map Region.scanned, Region.ofOpener? l.toList = none :=
    List.forall_mem_map.mpr fun l hl => (ProceduralDocument.isQuiet_headLines hd l hl).2
  rw [ProceduralDocument.text, run_unlines (oneLine_documentLines hd hblocks), hlines, List.map_append,
    readLines_outside hquiet, List.length_map, List.map_append, htail, hread]
  exact hdisplay.congr (fun _ => rfl) hsame

theorem Shows.layout (h : r.Shows page known notices) {n : Nat} (hn : 0 < n)
    (hknown : ∀ i, known i ↔ i < n) :
    r.layout = ({ pages := (List.range n).map page }, notices) := by
  have hmem : ∀ i, i ∈ r.pages.indices ↔ i < n := fun i => (h.known i).trans (hknown i)
  have hne : r.pages.isEmpty = false := by
    cases hp : r.pages with
    | nil => exact absurd ((hmem 0).mpr hn) (by simp [hp, PageTable.indices])
    | cons e t => rfl
  have hpages : r.pages.page = page := funext h.page
  simp only [Rebuild.layout, hne, PageTable.pagesFrom_complete h.ascending hmem, hpages, h.notices,
    List.append_nil, Bool.false_eq_true, if_false]

/-- A contained document is rebuilt into its own pages, or into a single page if it has none. -/
theorem ofConfiguration_text (hd : d.IsContained) {blocks : Nat → List CodeBlock}
    (hblocks : HasBlocks blocks d.pages) (hnumbered : IsNumbered d.pages) :
    (d.pages = [] → Layout.ofConfiguration g d.text = (Layout.single, [])) ∧
    (d.pages ≠ [] → ∃ line : Nat → Nat, Layout.ofConfiguration g d.text =
      ({ pages := d.pages.map fun p =>
          (drawn g (declared p) p.name (line p.index) (blocks p.index)).1 },
        d.pages.flatMap fun p => (drawn g (declared p) p.name (line p.index) (blocks p.index)).2)) := by
  obtain ⟨page, line, told, hshows, hfills⟩ := run_text (g := g) hd hblocks hnumbered
  have hdeclared : ∀ p ∈ d.pages, refreshed Page.make d.refreshes p.index = declared p :=
    fun p hp => refreshed_intervals hnumbered.nodup hp
  have hdrawn : ∀ p ∈ d.pages, drawn g (refreshed Page.make d.refreshes p.index) p.name (line p.index)
      (blocks p.index) = drawn g (declared p) p.name (line p.index) (blocks p.index) :=
    fun p hp => by rw [hdeclared p hp]
  constructor
  · intro hempty
    have hknown : ∀ i, i ∈ d.pages.map ProceduralPage.index ∨ i = 0 ↔ i < 1 := by
      simp [hempty]
    have hfirst : page 0 = Page.make 0 := by
      rw [hfills.others 0 (by simp [hempty]), ProceduralDocument.refreshes, hempty]
      rfl
    rw [Layout.ofConfiguration, hshows.layout Nat.one_pos hknown, hfills.told, hempty]
    simp [hfirst, Layout.single]
  · intro hne
    have hpos : 0 < d.pages.length := List.length_pos_iff.mpr hne
    have hknown : ∀ i, i ∈ d.pages.map ProceduralPage.index ∨ i = 0 ↔ i < d.pages.length := by
      intro i
      rw [hnumbered.indices, List.mem_range]
      omega
    have hpages : (List.range d.pages.length).map page = d.pages.map fun p =>
        (drawn g (declared p) p.name (line p.index) (blocks p.index)).1 := by
      rw [← hnumbered.indices, List.map_map]
      exact List.map_congr_left fun p hp => (hfills.filled p hp).trans (congrArg Prod.fst (hdrawn p hp))
    have htold : told = d.pages.flatMap fun p =>
        (drawn g (declared p) p.name (line p.index) (blocks p.index)).2 := by
      rw [hfills.told, List.flatMap_def, List.flatMap_def]
      exact congrArg List.flatten (List.map_congr_left fun p hp => congrArg Prod.snd (hdrawn p hp))
    exact ⟨line, by rw [Layout.ofConfiguration, hshows.layout hpos hknown, hpages, htold]⟩

end Rebuild

end Dashboard
