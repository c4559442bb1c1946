import Dashboard.Proofs.Compile.Blocks
import Dashboard.Proofs.Compile.Registrations
import Dashboard.Proofs.Rebuild.Document
/-!
# The document of a layout

The sections of a document hold three kinds of free text: families of fonts, durations of graphs and, if
entities are declared, their ids. A document in which these stay on their lines is contained, whatever
the other texts of its layout are.
-/

namespace Dashboard

open Text Emission Number

/-- The free texts of the sections of a document. -/
def ProceduralDocument.rawTexts (d : ProceduralDocument) : List String :=
  d.fonts.map FontRequest.family ++ d.graphs.map Graph.duration ++
    if d.options.emitSensors then d.sensors.map SensorDecl.entityId else []

/-- The entities that a widget reads satisfy a predicate. -/
structure Widget.HasEntities (T : String → Prop) (w : Widget) : Prop where
  first : ∀ e, w.entity? = some e → T e
  second : ∀ e, w.secondEntityId = some e → T e
  condition : ∀ e, w.condition.entity? = some e → T e

namespace Registry

theorem oneLine_trim {t : String} (h : OneLine t) : OneLine (trim t) :=
  .ofList fun hmem => h (mem_of_mem_trimChars hmem)

theorem oneLine_of_isFamily {family : String} (h : Resources.IsFamily OneLine family) :
    OneLine family := by
  rcases h with rfl | ⟨raw, hraw, rfl⟩
  · decide
  · unfold FontRequest.familyOf
    dsimp only
    split
    · decide
    · exact oneLine_trim hraw

theorem oneLine_normalize? {raw entity : String} (hraw : OneLine raw)
    (h : Entity.normalize? raw = some entity) : OneLine entity := by
  obtain ⟨e, he, rfl⟩ := Option.map_eq_some_iff.mp h
  obtain ⟨rfl, -⟩ := nonBlank?_eq_some he
  split
  · exact oneLine_trim hraw
  · exact .append (by decide) (oneLine_trim hraw)

/-- The drawing code of a layout before it is written. -/
def document (g : Registry) (o : Options) (l : Layout) : ProceduralDocument :=
  let s := settingOf o l .procedural
  let r := resourcesOf g o l .procedural
  { options := o
    fonts := Table.values r.fonts
    graphs := Table.values r.graphs
    sensors := sensorsOf s r
    colors := r.colors
    pages := (compilePages g s 0 l.pages {}).1.map proceduralPage }

theorem text_compile (g : Registry) (o : Options) (l : Layout) :
    (compile g o l .procedural).output.text = (document g o l).text := rfl

variable {g : Registry} {o : Options} {l : Layout} {s : Setting} {T : String → Prop}

theorem keeps_areOf (hs : s.target = .procedural) (hid : OneLine s.options.displayId) (id : String)
    {raw : Option String} (ht : ∀ e, raw = some e → T e) : s.Keeps (Resources.AreOf T) id raw := by
  intro entity action hentity haction t h
  obtain ⟨text, htext, hnormal⟩ := Option.bind_eq_some_iff.mp hentity
  rw [Setting.refreshAction?, hs] at haction
  exact h.register (ht text htext) hnormal ⟨_, hid, (Option.some.inj haction).symm⟩

theorem IsWritten.resolvesInCommon (hg : g.IsWritten) : g.All WidgetKind.ResolvesInCommon := fun kind k hk =>
  (hg.resolves kind k hk).imp_left fun hpure => .inr fun s ws => congrFun (congrFun hpure s) ws

theorem isOf_resourcesOf (hg : g.IsWritten) (ho : o.IsOneLine)
    (hraw : ∀ w ∈ l.widgets, g.HasRawTexts T w) (hw : ∀ w ∈ l.widgets, w.HasEntities T) :
    (resourcesOf g o l .procedural).IsOf T := by
  have hpages : ∀ p ∈ l.pages, ∀ w ∈ p.widgets, g.HasRawTexts T w := fun p hp w hmem =>
    hraw w (List.mem_flatMap.mpr ⟨p, hp, hmem⟩)
  have hcompiled := (compilePages_blocks hg (s := settingOf o l .procedural) rfl ho.timeId 0 hpages
    (Resources.isOf_empty T)).1
  have hkeeps : ∀ w ∈ l.widgets, w.Keeps g (settingOf o l .procedural) (Resources.AreOf T) := by
    intro w hmem
    refine ⟨fun _ _ _ _ raw hentity => keeps_areOf rfl ho.displayId w.id ?_,
      fun _ => keeps_areOf rfl ho.displayId w.id (hw w hmem).condition⟩
    rcases List.mem_cons.mp hentity with rfl | hsecond
    · exact (hw w hmem).first
    · exact List.mem_singleton.mp hsecond ▸ (hw w hmem).second
  have htriggers := resourcesOf_keeps hg.resolvesInCommon hkeeps ⟨hcompiled.numeric, hcompiled.text⟩
  obtain ⟨triggers, hresources⟩ :=
    resourcesOf_triggers (fun kind k hk => (hg.resolvesInCommon kind k hk).triggersOnly) o l .procedural
  rw [hresources] at htriggers ⊢
  exact ⟨hcompiled.fonts, hcompiled.colors, hcompiled.graphs, htriggers.1, htriggers.2⟩

theorem mem_sensorsOf {r : Resources} {x : SensorDecl} (h : x ∈ sensorsOf s r) :
    ∃ e ∈ r.triggers.numeric ++ r.triggers.text, x = .of e.1 (Table.keys e.2) := by
  unfold sensorsOf at h
  split at h
  · obtain ⟨e, he, rfl⟩ := List.mem_map.mp (List.mem_mergeSort.mp h)
    exact ⟨e, he, rfl⟩
  · exact absurd h List.not_mem_nil

theorem isActions_of_mem {r : Resources} (hr : r.IsOf T) {e : String × Table Unit}
    (he : e ∈ r.triggers.numeric ++ r.triggers.text) :
    (∃ raw, T raw ∧ Entity.normalize? raw = some e.1) ∧ ∀ a ∈ e.2, Resources.IsRefresh a.1 :=
  (List.mem_append.mp he).elim (hr.numeric e) (hr.text e)

/-- Whatever a layout holds, its document is contained as soon as its free texts stay on their lines. -/
theorem isContained_document (hg : g.IsWritten) (ho : o.IsOneLine)
    (hraw : ∀ t ∈ (document g o l).rawTexts, OneLine t) : (document g o l).IsContained := by
  have hr : (resourcesOf g o l .procedural).IsOf fun _ => True :=
    isOf_resourcesOf hg ho (fun _ _ _ _ _ _ _ _ _ _ => trivial) fun _ _ =>
      ⟨fun _ _ => trivial, fun _ _ => trivial, fun _ _ => trivial⟩
  simp only [ProceduralDocument.rawTexts, List.forall_mem_append, List.forall_mem_map] at hraw
  obtain ⟨⟨hfonts, hdurations⟩, hentities⟩ := hraw
  refine ⟨ho, hfonts, fun graph hgraph => ?_, fun hemit x hx => ?_, hr.colors⟩
  · obtain ⟨e, he, rfl⟩ := List.mem_map.mp hgraph
    obtain ⟨hid, hsensor, -⟩ := hr.graphs e he
    exact ⟨hid, hsensor, hdurations e.2 hgraph⟩
  · obtain ⟨e, he, rfl⟩ := mem_sensorsOf hx
    rw [if_pos hemit] at hentities
    refine ⟨oneLine_componentId e.1, hentities _ (List.mem_map_of_mem hx), fun a ha => ?_⟩
    obtain ⟨action, haction, rfl⟩ := List.mem_map.mp ha
    exact (isActions_of_mem hr he).2 action haction

theorem oneLine_rawTexts (hg : g.IsWritten) (ho : o.IsOneLine)
    (hraw : ∀ w ∈ l.widgets, g.HasRawTexts OneLine w)
    (hw : ∀ w ∈ l.widgets, w.HasEntities OneLine) : ∀ t ∈ (document g o l).rawTexts, OneLine t := by
  have hr : (resourcesOf g o l .procedural).IsOf OneLine := isOf_resourcesOf hg ho hraw hw
  simp only [ProceduralDocument.rawTexts, List.forall_mem_append, List.forall_mem_map]
  refine ⟨⟨fun f hf => ?_, fun graph hgraph => ?_⟩, ?_⟩
  · obtain ⟨e, he, rfl⟩ := List.mem_map.mp hf
    exact oneLine_of_isFamily (hr.fonts e he)
  · obtain ⟨e, he, rfl⟩ := List.mem_map.mp hgraph
    exact (hr.graphs e he).2.2
  · split
    · simp only [List.forall_mem_map]
      intro x hx
      obtain ⟨e, he, rfl⟩ := mem_sensorsOf hx
      obtain ⟨raw, hraw, hentity⟩ := (isActions_of_mem hr he).1
      exact oneLine_normalize? hraw hentity
    · exact fun _ h => absurd h List.not_mem_nil

theorem pages_document_length : (document g o l).pages.length = l.pages.length := by
  have h := congrArg List.length
    (map_index_compilePages (g := g) (s := settingOf o l .procedural) 0 l.pages {})
  rw [List.length_map, List.length_range'] at h
  rw [document, List.length_map, h]

theorem isNumbered_document (h : l.pages.length ≤ twoTo 64) :
    Rebuild.IsNumbered (document g o l).pages where
  indices := by
    rw [pages_document_length, List.range_eq_range']
    exact (List.map_map).trans (map_index_compilePages 0 l.pages {})
  inRange := by rwa [pages_document_length]

theorem hasBlocks_of_showsPage {blocks : Nat → List CodeBlock} {ps : List Page}
    {qs : List ProceduralPage} (h : List.Forall₂ (ShowsPage g blocks) ps qs) :
    Rebuild.HasBlocks blocks qs := by
  induction h with
  | nil => exact fun q hq => absurd hq List.not_mem_nil
  | cons hpq _ ih =>
    refine List.forall_mem_cons.mpr ⟨⟨fun b hb => ?_, hpq.body⟩, ih⟩
    obtain ⟨i, hi, rfl⟩ := List.mem_iff_getElem.mp hb
    exact ((List.forall₂_iff_get.mp hpq.widgets).2 i (by rwa [hpq.widgets.length_eq]) hi).readable

/-- Every page of a document consists of the blocks of the widgets that the compile emits on it. -/
theorem document_blocks (hg : g.IsWritten) (ho : OneLine o.timeId) :
    ∃ blocks : Nat → List CodeBlock, List.Forall₂ (ShowsPage g blocks)
      (emittedLayout g o l .procedural).pages (document g o l).pages := by
  obtain ⟨-, blocks, h⟩ := compilePages_blocks hg (s := settingOf o l .procedural) (T := fun _ => True)
    rfl ho 0 (fun _ _ _ _ _ _ _ _ _ _ _ _ => trivial) (Resources.isOf_empty _)
  exact ⟨blocks, h.imp fun _ _ hpq => hpq.2⟩

end Registry

end Dashboard
