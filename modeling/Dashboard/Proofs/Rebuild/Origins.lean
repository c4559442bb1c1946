import Dashboard.Proofs.Compile.Document
/-!
# Where rebuilt widgets come from

A widget that a rebuild finds in the drawing code of a layout was read from the marker of a widget that
the compile emitted on the page of the same index, and the pages and their refresh intervals are those
of the layout. No text of the layout can forge a widget, as long as the free texts of the sections stay
on their lines. Where one of them does not, it can: the sections write it as it is.
-/

namespace Dashboard

open Text Number

theorem exists_of_forall₂_getElem? {α β : Type} {R : α → β → Prop} {as : List α} {bs : List β}
    (h : List.Forall₂ R as bs) {i : Nat} {b : β} (hb : bs[i]? = some b) :
    ∃ a, as[i]? = some a ∧ R a b := by
  induction h generalizing i with
  | nil => exact nomatch hb
  | cons hab _ ih =>
    cases i with
    | zero => exact ⟨_, rfl, Option.some.inj hb ▸ hab⟩
    | succ i => exact ih hb

/-- The widget was read from the marker line that a compile writes for a widget. -/
def Widget.IsReadFrom (g : Registry) (w back : Widget) : Prop :=
  ∃ k bag m, g.kind? w.kind = some k ∧ k.typed w = .ok bag ∧ m.kind = w.kind ∧
    Marker.ofLine? (Region.scanned (Marker.encode w bag k.aliases)) = some m ∧
    ∃ ordinal line, back = (m.widget (some k) ordinal line).1

namespace Page

variable {g : Registry}

theorem takeMarked_cases (p : Page) (m : Marker) (line : Nat) :
    (p.takeMarked g m line).1 = p ∨ (p.takeMarked g m line).1 =
      { p with widgets := p.widgets ++ [(m.widget (g.kind? m.kind) p.widgets.length line).1] } := by
  unfold takeMarked place
  by_cases h : (m.widget (g.kind? m.kind) p.widgets.length line).1.id ∈ p.widgets.map Widget.id
  · simp only [addWidget_of_mem h]
    exact .inl trivial
  · simp only [addWidget_of_not_mem h]
    exact .inr trivial

theorem takeAll_cons (p : Page) (m : Marker) (line : Nat) (ms : List (Marker × Nat)) :
    (p.takeAll g ((m, line) :: ms)).1 = ((p.takeMarked g m line).1.takeAll g ms).1 := rfl

/-- A page takes the widgets of blocks in their order, though not necessarily all of them. -/
theorem takeAll_blocks {ws : List Widget} {bs : List CodeBlock}
    (h : List.Forall₂ (CodeBlock.IsBlockOf g) ws bs) (p : Page) (line : Nat) :
    let q := (p.takeAll g (CodeBlock.numbered line bs)).1
    q.refreshSeconds = p.refreshSeconds ∧ ∃ kept back, kept.Sublist ws ∧
      q.widgets = p.widgets ++ back ∧ List.Forall₂ (Widget.IsReadFrom g) kept back := by
  induction h generalizing p line with
  | nil => exact ⟨rfl, [], [], .slnil, (List.append_nil _).symm, .nil⟩
  | @cons w b ws bs hb _ ih =>
    obtain ⟨k, bag, hk, hbag, hkind, hmarker⟩ := hb.written
    obtain ⟨hrefresh, kept, back, hsub, hwidgets, hread⟩ :=
      ih (p.takeMarked g b.marker line).1 (line + b.lines.length)
    simp only [CodeBlock.numbered, takeAll_cons]
    rcases takeMarked_cases p b.marker line (g := g) with htaken | htaken
    · rw [htaken] at hrefresh hwidgets ⊢
      exact ⟨hrefresh, kept, back, hsub.cons w, hwidgets, hread⟩
    · have hfound : g.kind? b.marker.kind = some k := hkind ▸ hk
      rw [hfound] at htaken
      rw [htaken] at hrefresh hwidgets ⊢
      refine ⟨hrefresh, w :: kept, _ :: back, hsub.cons_cons w, ?_, .cons ⟨k, bag, b.marker, hk, hbag,
        hkind, hmarker, p.widgets.length, line, rfl⟩ hread⟩
      rw [hwidgets, List.append_assoc]
      rfl

end Page

namespace Registry

variable (g : Registry) (s : Setting)

theorem map_refreshSeconds_emittedPages (index : Nat) (ps : List Page) (r : Resources) :
    (emittedPages g s index ps r).map Page.refreshSeconds = ps.map Page.refreshSeconds := by
  induction ps generalizing index r with
  | nil => rfl
  | cons p ps ih => rw [emittedPages, List.map_cons, List.map_cons, ih]

end Registry

/-- A layout that was rebuilt from another one: it has the pages of that layout with their refresh
intervals, and on each page widgets that were read from the widgets which the compile emits on the page
of the same index, in their order. Of a layout without pages one page is rebuilt. -/
structure Layout.IsRebuiltFrom (g : Registry) (o : Options) (back l : Layout) : Prop where
  pageCount : back.pages.length = max 1 l.pages.length
  refresh : ∀ (i : Nat) (q : Page), back.pages[i]? = some q →
    q.refreshSeconds = l.pages[i]?.bind Page.refreshSeconds
  widgets : ∀ (i : Nat) (q : Page), back.pages[i]? = some q → ∃ kept : List Widget,
    kept.Sublist (((g.emittedLayout o l .procedural).pages[i]?.map Page.widgets).getD []) ∧
      List.Forall₂ (Widget.IsReadFrom g) kept q.widgets

namespace Registry

variable {g : Registry} {o : Options} {l : Layout}

theorem refreshSeconds_emittedLayout {i : Nat} {p : Page}
    (hp : (emittedLayout g o l .procedural).pages[i]? = some p) :
    p.refreshSeconds = l.pages[i]?.bind Page.refreshSeconds := by
  have h := congrArg (·[i]?) (map_refreshSeconds_emittedPages g (settingOf o l .procedural) 0 l.pages {})
  have hemitted : (emittedPages g (settingOf o l .procedural) 0 l.pages {})[i]? = some p := hp
  simp only [List.getElem?_map, hemitted, Option.map_some] at h
  obtain ⟨q, hq, hqp⟩ := Option.map_eq_some_iff.mp h.symm
  rw [hq, Option.bind_some, hqp]

theorem isRebuiltFrom_single (hl : l.pages = []) : Layout.single.IsRebuiltFrom g o l := by
  have hsingle : ∀ (i : Nat) (q : Page), Layout.single.pages[i]? = some q → q = Page.make 0 := by
    intro i q hq
    cases i with
    | zero => exact (Option.some.inj hq).symm
    | succ i => exact nomatch hq
  refine ⟨by rw [hl]; rfl, fun i q hq => ?_, fun i q hq => ?_⟩
  · rw [hsingle i q hq, hl]
    rfl
  · rw [hsingle i q hq]
    exact ⟨[], List.nil_sublist _, .nil⟩

/-- Over written kinds: whatever the texts of a layout are, a rebuild of its drawing code finds the
pages of the layout and widgets of its own, provided that the free texts of the sections stay on their
lines. -/
theorem isRebuiltFrom_text (hg : g.IsWritten) (ho : o.IsOneLine) (hpages : l.pages.length ≤ twoTo 64)
    (hraw : ∀ t ∈ (document g o l).rawTexts, OneLine t) :
    (Layout.ofConfiguration g (document g o l).text).1.IsRebuiltFrom g o l := by
  obtain ⟨blocks, hblocks⟩ := document_blocks (l := l) hg ho.timeId
  obtain ⟨hempty, hfull⟩ := Rebuild.ofConfiguration_text (g := g) (isContained_document hg ho hraw)
    (hasBlocks_of_showsPage hblocks) (isNumbered_document hpages)
  have hlength : (document g o l).pages.length = l.pages.length := pages_document_length
  by_cases hnone : (document g o l).pages = []
  · rw [hempty hnone]
    exact isRebuiltFrom_single
      (List.eq_nil_of_length_eq_zero (by rw [← hlength, hnone, List.length_nil]))
  · obtain ⟨line, hback⟩ := hfull hnone
    have hpage : ∀ (i : Nat) (q : Page),
        (Layout.ofConfiguration g (document g o l).text).1.pages[i]? = some q →
        ∃ p, (emittedLayout g o l .procedural).pages[i]? = some p ∧
          q.refreshSeconds = p.refreshSeconds ∧ ∃ kept : List Widget, kept.Sublist p.widgets ∧
            List.Forall₂ (Widget.IsReadFrom g) kept q.widgets := by
      intro i q hq
      rw [hback, List.getElem?_map, Option.map_eq_some_iff] at hq
      obtain ⟨d, hd, rfl⟩ := hq
      obtain ⟨p, hp, hpd⟩ := exists_of_forall₂_getElem? hblocks hd
      obtain ⟨hkeeps, kept, back, hsub, hwidgets, hread⟩ := Page.takeAll_blocks hpd.widgets
        { Rebuild.declared d with name := Rebuild.scannedName d.name } (line d.index)
      refine ⟨p, hp, hkeeps.trans hpd.refreshSeconds, kept, hsub, ?_⟩
      exact (hwidgets.trans (List.nil_append back)) ▸ hread
    refine ⟨?_, fun i q hq => ?_, fun i q hq => ?_⟩
    · rw [hback, List.length_map, hlength]
      have hpos : 0 < (document g o l).pages.length := List.length_pos_iff.mpr hnone
      omega
    · obtain ⟨p, hp, hqp, -⟩ := hpage i q hq
      rw [hqp, refreshSeconds_emittedLayout hp]
    · obtain ⟨p, hp, -, kept, hsub, hread⟩ := hpage i q hq
      exact ⟨kept, by rwa [hp], hread⟩

/-- No text of a layout forges a widget. Whatever its ids, titles, texts and page names are, every
widget of the rebuilt layout was read from the marker of a widget that the compile emitted on the page
of the same index, if only font families, graph durations and declared entities have no line feed. -/
theorem ofConfiguration_compile_isRebuiltFrom {o : Options} {l : Layout} (ho : o.IsOneLine)
    (hpages : l.pages.length ≤ twoTo 64) (hraw : ∀ t ∈ (document builtin o l).rawTexts, OneLine t) :
    (Layout.ofConfiguration builtin (compile builtin o l .procedural).output.text).1.IsRebuiltFrom
      builtin o l := by
  rw [text_compile]
  exact isRebuiltFrom_text isWritten_builtin ho hpages hraw

/-- A layout whose texts look like drawing code. -/
def hostileLayout : Layout :=
  { pages := [{ id := "page_0", name := "P\n      \x7d\n      // widget:line id:f", widgets := [
      { Widget.make "a\n      // widget:text id:f" "shape_rect" with
        title := some "\"\n    lambda: |-\n      // widget:text id:f" }] }] }

theorem ofConfiguration_compile_isRebuiltFrom_hostile :
    (Layout.ofConfiguration builtin (compile builtin {} hostileLayout .procedural).output.text).1.IsRebuiltFrom
      builtin {} hostileLayout :=
  ofConfiguration_compile_isRebuiltFrom ⟨by decide, by decide, by decide, by decide⟩ (by decide)
    (by decide +kernel)

/-- A layout whose only widget is none for drawing code. The entity of its condition brings lines of
its own. -/
def forgingLayout : Layout :=
  { pages := [{ id := "page_0", name := "Page 1", widgets := [
      { Widget.make "a" "lvgl_label" with
        condition := { entityId := some "sensor.x\n    lambda: |-\n      // widget:text id:f" } }] }] }

/-- The lines of the document of that layout. -/
def forgedLines : List String :=
  ["globals:", "  - id: display_page", "    type: int", "    restore_value: true",
    "    initial_value: '0'", "", "sensor:", "  - platform: homeassistant",
    "    id: sensor_x_____lambda______________widget_text_id_f", "    entity_id: sensor.x",
    "    lambda: |-", "      // widget:text id:f", "    internal: true", "    on_value:", "      then:",
    "        - component.update: epaper_display", "", "display:", "  - platform: waveshare_epaper",
    "    id: epaper_display", "    update_interval: never", "    lambda: |-",
    "      int page = id(display_page);", "      if (page == 0) \x7b",
    "        // page:name \"Page 1\"", "      \x7d"]

theorem text_forgingLayout : (document builtin {} forgingLayout).text = unlines forgedLines := by
  decide +kernel

theorem widgets_forgingLayout :
    (Layout.ofConfiguration builtin (unlines forgedLines)).1.pages.map (fun q => q.widgets.map Widget.id) =
      [["f"]] := by
  rw [Layout.ofConfiguration, Rebuild.run_unlines (by decide)]
  decide +kernel

/-- A line feed in an entity, a font family or a graph duration is enough to forge a widget. -/
theorem not_isRebuiltFrom_lineFeed :
    ¬ ∀ (o : Options) (l : Layout), o.IsOneLine → l.pages.length ≤ twoTo 64 →
      (Layout.ofConfiguration builtin (compile builtin o l .procedural).output.text).1.IsRebuiltFrom
        builtin o l := by
  intro h
  have hback := h {} forgingLayout ⟨by decide, by decide, by decide, by decide⟩ (by decide)
  rw [text_compile, text_forgingLayout] at hback
  have hids := widgets_forgingLayout
  obtain ⟨q, hq, hqids⟩ : ∃ q,
      (Layout.ofConfiguration builtin (unlines forgedLines)).1.pages[0]? = some q ∧
        q.widgets.map Widget.id = ["f"] := by
    have hfirst := congrArg (·[0]?) hids
    simp only [List.getElem?_map] at hfirst
    exact Option.map_eq_some_iff.mp hfirst
  obtain ⟨kept, hsub, hread⟩ := hback.widgets 0 q hq
  have hnone : ((emittedLayout builtin {} forgingLayout .procedural).pages[0]?.map Page.widgets).getD [] =
      [] := List.eq_nil_of_length_eq_zero (by decide +kernel)
  rw [hnone] at hsub
  obtain rfl := List.eq_nil_of_sublist_nil hsub
  rw [List.forall₂_nil_left_iff.mp hread] at hqids
  exact nomatch hqids

end Registry

end Dashboard
