import Dashboard.Proofs.Compile.Emitted
import Dashboard.Proofs.Marker.Tabs
import Dashboard.Proofs.Rebuild.Origins
/-!
# Shown texts come back

A text widget that shows any text is emitted as drawing code, and its marker brings the text back with its
tabs expanded. Quotes, backslashes, line breaks and all other control characters survive as they are;
a tab is the one character that does not.
-/

namespace Dashboard

open Text Json Number Emission

/-- A text widget that shows a text. -/
def Widget.ofText (id text : String) (x y width height : Binary64) : Widget :=
  ((make id "text").withGeometry x y width height).withProp "text" (.string text)

namespace Kind.TextBlock

theorem overlay_text (text : String) :
    Bag.overlay schema.defaults [("text", .string text)] = schema.bag { text } := by
  simp +decide only [Bag.overlay, Schema.defaults, Schema.bag, schema, Table.ofList, Table.put, Json.isNull,
    List.foldl, reduceIte]

theorem read_ofText (id text : String) (x y width height : Binary64) :
    schema.read (Widget.ofText id text x y width height) = .ok { text } :=
  isRestorable.read_of_overlay (overlay_text text)

theorem typed_ofText {id text : String} {x y width height : Binary64} {bag : Bag}
    (h : kind.typed (Widget.ofText id text x y width height) = .ok bag) : bag = schema.bag { text } := by
  have hread : kind.typed (Widget.ofText id text x y width height) = .ok (schema.bag { text }) :=
    congrArg (Except.map schema.bag) (read_ofText id text x y width height)
  exact Except.ok.inj (h.symm.trans hread)

theorem emits {s : Setting} (hs : s.target = .procedural) {w : Widget} {p : Props}
    (hp : schema.read w = .ok p) (r : Resources) :
    ∃ c after, runWith (kind.emit s w) r = (.ok c, after) := by
  have hexport : schema.readForExport w = .ok p := by
    rw [Schema.readForExport, hp]
    rfl
  have hcollect : kind.collectFor s w = collect s w := rfl
  have hprocedural : kind.procedural = procedural := rfl
  simp only [WidgetKind.emit, WidgetKind.content, hcollect, hs, hprocedural, collect, procedural, hexport,
    runWith_bind, runWith_ofExcept, runWith_register, runWith_pure]
  exact ⟨_, _, rfl⟩

theorem headEntries_ofText (id text : String) (x y width height : Binary64) :
    (Marker.headEntries (Widget.ofText id text x y width height)).map Marker.expandedEntry =
      Marker.headEntries (Widget.ofText (Region.expandTabs id) (Region.expandTabs text) x y width height) := by
  have hpixel : ∀ i, Region.expandTabs (intText i) = intText i := fun i =>
    Region.expandTabs_eq (Marker.tab_not_mem_numeral fun _ hc => isNumeralChar_intText hc)
  have hkind : Region.expandTabs "text" = "text" := by decide
  simp only [Widget.ofText, Widget.make, Widget.withGeometry, Widget.withProp, Widget.rect,
    Marker.headEntries, Marker.conditionEntries, Marker.entryIf, Marker.notBlank, Condition.entity?, Option.filter_none,
    Option.bind_none, List.append_nil, List.map_cons, List.map_nil, Marker.expandedEntry, hpixel, hkind]

/-- Properties whose texts have their tabs expanded. -/
def Props.expanded (p : Props) : Props :=
  { p with
    text := Region.expandTabs p.text
    fontFamily := Region.expandTabs p.fontFamily
    color := Region.expandTabs p.color
    textAlign := Region.expandTabs p.textAlign }

theorem bag_expanded (p : Props) :
    (schema.bag p).map (fun e => (e.1, e.2.expanded)) = schema.bag p.expanded := by
  rw [Schema.bag, Table.map_ofList]
  rfl

theorem find?_text (p : Props) : Table.find? (schema.bag p) "text" = some (.string p.text) :=
  Table.find?_ofList_of_mem (isRestorable.nodup p) List.mem_cons_self

theorem oneLine_fontFamily (text : String) : HasRaw OneLine (schema.bag { text }) := by
  intro key hkey raw hfound
  have hnames : ∀ key ∈ rawKeys, ∀ f ∈ schema.fields { text }, f.1 = key → f.2 = .string "Roboto" := by
    simp +decide [rawKeys, schema]
  have hmem := isRestorable.mem_bag_iff.mp (Table.mem_of_find? hfound)
  have hraw := hnames key hkey (key, .string raw) hmem rfl
  cases hraw
  decide

end Kind.TextBlock

/-- A layout of one page with one text widget. -/
def Layout.ofText (settings : Settings) (p : Page) (id text : String) (x y width height : Binary64) :
    Layout := { settings, pages := [{ p with widgets := [Widget.ofText id text x y width height] }] }

namespace Registry

open Kind

variable {o : Options} {settings : Settings} {p : Page} {id text : String} {x y width height : Binary64}

theorem kind?_text : builtin.kind? "text" = some TextBlock.kind := rfl

theorem emittedLayout_ofText :
    emittedLayout builtin o (Layout.ofText settings p id text x y width height) .procedural =
      Layout.ofText settings p id text x y width height := by
  obtain ⟨c, after, hemits⟩ := TextBlock.emits
    (s := settingOf o (Layout.ofText settings p id text x y width height) .procedural) rfl
    (TextBlock.read_ofText id text x y width height) {}
  have hemitted := compileWidget_emitted (g := builtin) (w := Widget.ofText id text x y width height)
    kind?_text rfl hemits 0
  have hkept : emittedWidgets builtin
      (settingOf o (Layout.ofText settings p id text x y width height) .procedural) 0
      [Widget.ofText id text x y width height] {} = [Widget.ofText id text x y width height] := by
    rw [emittedWidgets, hemitted]
    rfl
  exact congrArg (fun ws : List Widget => ({ settings, pages := [{ p with widgets := ws }] } : Layout)) hkept

/-- The marker that a rebuild reads of a text widget is the one of the expanded texts. -/
theorem ofLine?_ofText {m : Marker} (h : Marker.ofLine? (Region.scanned (Marker.encode
      (Widget.ofText id text x y width height) (TextBlock.schema.bag { text }) TextBlock.aliases)) = some m) :
    let expanded := Widget.ofText (Region.expandTabs id) (Region.expandTabs text) x y width height
    m = ⟨expanded.kind, Table.ofList (Marker.entries expanded
      (TextBlock.schema.bag (TextBlock.Props.expanded { text })) TextBlock.kind.aliases)⟩ := by
  have hmatches : ∀ e ∈ TextBlock.schema.bag { text }, ∃ template, Marker.Matches template e.2 := by
    intro e he
    obtain ⟨template, -, hmatch⟩ := TextBlock.isRestorable.exists_default he
    exact ⟨template, hmatch⟩
  rw [Marker.ofLine?_expanded (by decide : Marker.IsKey "text".toList)
    (TextBlock.hasKeys.propEntries _), Marker.entries, List.map_append, TextBlock.headEntries_ofText,
    Marker.expandedEntry_propEntries hmatches, TextBlock.bag_expanded] at h
  exact (Option.some.inj h).symm

/-- The block of a text widget brings back the expanded text, whatever becomes of its id. -/
theorem props_of_isBlockOf {b : CodeBlock}
    (hb : b.IsBlockOf builtin (Widget.ofText id text x y width height)) (ordinal line : Nat) :
    (b.marker.widget (builtin.kind? b.marker.kind) ordinal line).1.props =
      TextBlock.schema.bag (TextBlock.Props.expanded { text }) := by
  obtain ⟨k, bag, hk, hbag, hkind, hmarker⟩ := hb.written
  obtain rfl := Option.some.inj (hk.symm.trans kind?_text)
  obtain rfl := TextBlock.typed_ofText hbag
  have hfound : builtin.kind? b.marker.kind = some TextBlock.kind := hkind ▸ hk
  have hdefaults : TextBlock.kind.descriptor.defaults = TextBlock.schema.defaults := rfl
  have hrestores : Marker.Restores TextBlock.kind.aliases TextBlock.kind.descriptor.defaults "text"
      (TextBlock.schema.bag (TextBlock.Props.expanded { text })) := by
    rw [hdefaults]
    exact TextBlock.isRestorable.restores fun _ he htype =>
      not_type TextBlock.isRestorable (by decide) he htype
  rw [hfound, ofLine?_ofText hmarker]
  exact Marker.Restores.props_widget hrestores ordinal line

/-- The drawing code of one text widget is rebuilt into one page with one widget, which shows the text
with its tabs expanded. -/
theorem exists_back_of_ofText (ho : o.IsOneLine) (settings : Settings) (p : Page) (id text : String)
    (x y width height : Binary64) :
    let l := Layout.ofText settings p id text x y width height
    ∃ (q : Page) (back : Widget),
      (Layout.ofConfiguration builtin (compile builtin o l .procedural).output.text).1.pages = [q] ∧
        q.widgets = [back] ∧ back.props.find? "text" = some (.string (Region.expandTabs text)) := by
  intro l
  have hwidgets : ∀ w ∈ l.widgets, w = Widget.ofText id text x y width height := by
    intro w hw
    simpa [l, Layout.widgets, Layout.ofText] using hw
  have hraw : ∀ t ∈ (document builtin o l).rawTexts, OneLine t := by
    refine oneLine_rawTexts isWritten_builtin ho (fun w hw => ?_) (fun w hw => ?_)
    · obtain rfl := hwidgets w hw
      intro k hk bag hbag
      obtain rfl := Option.some.inj (hk.symm.trans kind?_text)
      obtain rfl := TextBlock.typed_ofText hbag
      exact TextBlock.oneLine_fontFamily text
    · obtain rfl := hwidgets w hw
      exact ⟨nofun, nofun, nofun⟩
  obtain ⟨blocks, hblocks⟩ := document_blocks (l := l) isWritten_builtin ho.timeId
  obtain ⟨-, hfull⟩ := Rebuild.ofConfiguration_text (g := builtin)
    (isContained_document isWritten_builtin ho hraw) (hasBlocks_of_showsPage hblocks)
    (isNumbered_document (by decide : 1 ≤ twoTo 64))
  rw [emittedLayout_ofText] at hblocks
  obtain ⟨d, ds, hpage, hnone, hpages⟩ := List.forall₂_cons_left_iff.mp hblocks
  obtain rfl := List.forall₂_nil_left_iff.mp hnone
  obtain ⟨b, bs, hb, hnone, hbs⟩ := List.forall₂_cons_left_iff.mp hpage.widgets
  obtain rfl := List.forall₂_nil_left_iff.mp hnone
  obtain ⟨line, hback⟩ := hfull (by rw [hpages]; exact List.cons_ne_nil _ _)
  have hdrawn : (Rebuild.drawn builtin (Rebuild.declared d) d.name (line d.index) [b]).1.widgets =
      [(b.marker.widget (builtin.kind? b.marker.kind) 0 (line d.index)).1] := rfl
  refine ⟨_, _, ?_, hdrawn, ?_⟩
  · rw [text_compile, hback, hpages, List.map_singleton, hbs]
  · rw [props_of_isBlockOf hb]
    exact TextBlock.find?_text _

/-- A shown text survives the round trip through drawing code with its tabs expanded, so it comes back
verbatim exactly if it has no tab, whatever its other characters are. -/
theorem ofConfiguration_compile_ofText (ho : o.IsOneLine) (settings : Settings) (p : Page)
    (id text : String) (x y width height : Binary64) :
    let l := Layout.ofText settings p id text x y width height
    ∃ (q : Page) (back : Widget),
      (Layout.ofConfiguration builtin (compile builtin o l .procedural).output.text).1.pages = [q] ∧
        q.widgets = [back] ∧ back.props.find? "text" = some (.string (Region.expandTabs text)) ∧
        (back.props.find? "text" = some (.string text) ↔ '\t' ∉ text.toList) := by
  have hiff : ∀ back : Widget, back.props.find? "text" = some (.string (Region.expandTabs text)) →
      (back.props.find? "text" = some (.string text) ↔ '\t' ∉ text.toList) := by
    intro back htext
    rw [htext, Option.some.injEq, Json.string.injEq]
    exact Region.expandTabs_eq_iff text
  obtain ⟨q, back, h⟩ := exists_back_of_ofText ho settings p id text x y width height
  exact ⟨q, back, h.1, h.2.1, h.2.2, hiff back h.2.2⟩

/-- The layout with a text widget of default size on its one page. -/
def textLayout (text : String) : Layout :=
  Layout.ofText {} (Page.make 0) "t0" text (.ofNat 0) (.ofNat 0) (.ofNat 100) (.ofNat 30)

theorem ofConfiguration_compile_ofText_controls :
    ∃ (q : Page) (back : Widget),
      (Layout.ofConfiguration builtin
        (compile builtin {} (textLayout "a\u000b \"b\\\r\n//") .procedural).output.text).1.pages = [q] ∧
        q.widgets = [back] ∧
        back.props.find? "text" = some (.string (Region.expandTabs "a\u000b \"b\\\r\n//")) ∧
        (back.props.find? "text" = some (.string "a\u000b \"b\\\r\n//") ↔
          '\t' ∉ "a\u000b \"b\\\r\n//".toList) :=
  ofConfiguration_compile_ofText ⟨by decide, by decide, by decide, by decide⟩ {} (Page.make 0) "t0" _ _ _ _ _

/-- Not every text comes back: a tab becomes four blanks. -/
theorem not_forall_text_comes_back :
    ¬ ∀ text : String, ∃ (q : Page) (back : Widget),
      (Layout.ofConfiguration builtin
        (compile builtin {} (textLayout text) .procedural).output.text).1.pages = [q] ∧
        q.widgets = [back] ∧ back.props.find? "text" = some (.string text) := by
  intro h
  obtain ⟨q, back, hpages, hwidgets, htext⟩ := h "a\tb"
  obtain ⟨q', back', hpages', hwidgets', htext'⟩ := exists_back_of_ofText (o := {})
    ⟨by decide, by decide, by decide, by decide⟩ {} (Page.make 0) "t0" "a\tb" (.ofNat 0) (.ofNat 0)
    (.ofNat 100) (.ofNat 30)
  obtain rfl := List.singleton_inj.mp (hpages.symm.trans hpages')
  obtain rfl := List.singleton_inj.mp (hwidgets.symm.trans hwidgets')
  have hexpanded : "a\tb" = Region.expandTabs "a\tb" := by
    simpa using htext.symm.trans htext'
  exact absurd hexpanded (by decide)

end Registry

end Dashboard
