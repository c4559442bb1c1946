import Dashboard.Proofs.Compile.Document
import Dashboard.Proofs.Compile.Refreshes
import Dashboard.Proofs.Kind.Inert
import Dashboard.Proofs.Rebuild.Retained
/-!
# Retained documents give back their pages

A rebuild takes the pages of a retained document over and nothing else: their widgets are lost without a
notice. This holds as long as no text of the layout leaves its line in the document. Texts are quoted, so
line breaks do no harm in them, except in a text with the tag of code in front.
-/

namespace Dashboard.Registry

open Text Number

variable {g : Registry} {o : Options} {l : Layout}

/-- The retained document of a layout before it is written. -/
def retainedDocument (g : Registry) (o : Options) (l : Layout) : RetainedDocument :=
  let r := resourcesOf g o l .retained
  { fonts := Table.values r.fonts
    sensors := sensorsOf (settingOf o l .retained) r
    pages := (compilePages g (settingOf o l .retained) 0 l.pages {}).1.map retainedPage }

theorem text_compile_retained (g : Registry) (o : Options) (l : Layout) :
    (compile g o l .retained).output.text = (retainedDocument g o l).text := rfl

theorem pages_retainedDocument_length : (retainedDocument g o l).pages.length = l.pages.length := by
  have h := congrArg List.length
    (map_index_compilePages (g := g) (s := settingOf o l .retained) 0 l.pages {})
  rw [List.length_map, List.length_range'] at h
  rw [retainedDocument, List.length_map, h]

theorem ids_retainedDocument : (retainedDocument g o l).pages.map RetainedPage.id =
    (List.range l.pages.length).map fun i => "page_" ++ natText i := by
  rw [List.range_eq_range', ← map_index_compilePages (g := g) (s := settingOf o l .retained) 0 l.pages {}]
  simp only [retainedDocument, List.map_map]
  rfl

/-- Nodes that start no page are gathered on the pages. -/
theorem isGathered_nodes (P : RetainedNode → Prop) : Content.IsGathered fun c => ∀ n ∈ c.nodes, P n where
  empty := fun _ hn => absurd hn List.not_mem_nil
  append := fun ha hb => List.forall_mem_append.mpr ⟨ha, hb⟩

theorem compilePages_inert (hi : g.All WidgetKind.IsInert) (htime : OneLine o.timeId)
    (hw : ∀ w ∈ l.widgets, w.KeepsLines) :
    (∀ p ∈ (compilePages g (settingOf o l .retained) 0 l.pages {}).1,
      ∀ n ∈ p.progress.content.nodes, n.IsInert) ∧
      (compilePages g (settingOf o l .retained) 0 l.pages {}).2.HasFamilies := by
  refine compilePages_yields (isGathered_nodes _) (fun p hp w hwp k hk _ => ?_) 0
    fun _ he => absurd he List.not_mem_nil
  have hkeeps : w.KeepsLines := hw w (List.mem_flatMap.mpr ⟨p, hp, hwp⟩)
  exact WidgetKind.yields_emit_retained rfl ((hi w.kind k hk).collect hkeeps) fun r ns hns =>
    (hi w.kind k hk).retained htime hkeeps hns

theorem oneLine_entities (ht : g.All WidgetKind.IsTracked) (hw : ∀ w ∈ l.widgets, w.KeepsLines) :
    (resourcesOf g o l .retained).triggers.IsFrom {e | OneLine e} := by
  refine resourcesOf_keeps (fun kind k hk => (ht kind k hk).resolvesInCommon) (fun w hmem => ⟨?_, nofun⟩) ?_
  · intro k _ _ _ raw hraw
    refine Setting.keeps_isFrom _ w.id fun e he => ?_
    obtain ⟨text, htext, hnormal⟩ := Option.bind_eq_some_iff.mp he
    refine oneLine_normalize? ?_ hnormal
    rcases List.mem_cons.mp hraw with rfl | hraw
    · exact (hw w hmem).entity text htext
    · exact (hw w hmem).secondEntity text (List.mem_singleton.mp hraw ▸ htext)
  · rw [triggers_compilePages ht rfl]
    exact Triggers.isFrom_empty _

theorem isContained_retainedDocument (hi : g.All WidgetKind.IsInert) (ht : g.All WidgetKind.IsTracked)
    (htime : OneLine o.timeId) (hcount : l.pages.length ≤ twoTo 64) (hw : ∀ w ∈ l.widgets, w.KeepsLines) :
    (retainedDocument g o l).IsContained where
  fonts := by
    obtain ⟨triggers, htriggers⟩ := resourcesOf_triggers
      (fun kind k hk => (ht kind k hk).resolvesInCommon.triggersOnly) o l .retained
    intro f hf
    obtain ⟨e, he, rfl⟩ := List.mem_map.mp hf
    rw [htriggers] at he
    exact oneLine_of_isFamily ((compilePages_inert hi htime hw).2 e he)
  sensors := by
    intro x hx
    obtain ⟨e, he, rfl⟩ := mem_sensorsOf hx
    refine ⟨oneLine_componentId e.1, (oneLine_entities ht hw).mem e he, fun a ha => ?_⟩
    obtain ⟨action, haction, rfl⟩ := List.mem_map.mp ha
    obtain ⟨w, hmem, -, hname⟩ := runsWithin_resourcesOf ht o l e he action haction
    exact ⟨w.id, (hw w hmem).id, hname⟩
  ids := by rw [pages_retainedDocument_length, ids_retainedDocument]
  inRange := pages_retainedDocument_length.trans_le hcount
  nodes := by
    intro p hp
    obtain ⟨q, hq, rfl⟩ := List.mem_map.mp hp
    exact (compilePages_inert hi htime hw).1 q hq

theorem isInert_builtin : builtin.All WidgetKind.IsInert := all_ofKinds fun _ => Kind.isInert_of_builtin

/-- Retained documents give back their pages. If no text of a layout leaves its line in the retained
document, the document is rebuilt into as many pages as the layout has, numbered in order and without
widgets, and there is no notice. -/
theorem ofConfiguration_compile_retained {o : Options} {l : Layout} (htime : OneLine o.timeId)
    (hpages : l.pages ≠ []) (hcount : l.pages.length ≤ twoTo 64) (hw : ∀ w ∈ l.widgets, w.KeepsLines) :
    Layout.ofConfiguration builtin (compile builtin o l .retained).output.text =
      ({ pages := (List.range l.pages.length).map Page.make }, []) := by
  have hcontained := isContained_retainedDocument isInert_builtin isTracked_builtin htime hcount hw
  have hne : (retainedDocument builtin o l).pages ≠ [] := fun hnil => hpages <| by
    rw [← List.length_eq_zero_iff, ← pages_retainedDocument_length (g := builtin) (o := o), hnil, List.length_nil]
  rw [text_compile_retained, RetainedDocument.ofConfiguration_text hcontained hne, pages_retainedDocument_length]

/-- Texts that look like pages, on lines of their own in one widget. -/
def lookalikeLayout : Layout :=
  { pages := [
      { id := "hall", name := "Hall", widgets := [
        { Widget.make "note" "lvgl_label" with
          entityId := some "sensor.hall"
          title := some "- id: page_7"
          props := [("text", .string "- id: page_8\n- id: page_9"), ("color", .string " red ")] },
        .make "- id: page_4" "shape_rect"] },
      { id := "attic", name := "Attic", widgets := [.make "now" "datetime"] }] }

theorem keepsLines_lookalikeLayout : ∀ w ∈ lookalikeLayout.widgets, w.KeepsLines := by
  refine List.forall_mem_cons.mpr ⟨⟨by decide, fun _ he => Option.some.inj he ▸ by decide, nofun, ?_⟩,
    List.forall_mem_cons.mpr ⟨⟨by decide, nofun, nofun, nofun⟩,
      List.forall_mem_singleton.mpr ⟨by decide, nofun, nofun, nofun⟩⟩⟩
  refine List.forall_mem_cons.mpr ⟨?_, List.forall_mem_singleton.mpr ?_⟩
  · exact ⟨by decide, by decide, by decide⟩
  · exact ⟨by decide, by decide, by decide⟩

theorem ofConfiguration_compile_retained_lookalike :
    Layout.ofConfiguration builtin (compile builtin {} lookalikeLayout .retained).output.text =
      ({ pages := [Page.make 0, Page.make 1] }, []) :=
  ofConfiguration_compile_retained (by decide) (by decide) (by decide) keepsLines_lookalikeLayout

/-- A color that brings a page along, behind a blank and the tag of code. -/
def taggedLayout : Layout :=
  { pages := [{ id := "page_0", name := "Page 1", widgets :=
      [{ Widget.make "box" "shape_rect" with props := [("color", .string " !lambda\n- id: page_1")] }] }] }

/-- It is not enough that no text begins with the tag of code, as the blanks before the tag are dropped. -/
theorem not_forall_ofConfiguration_retained : ¬ ∀ (o : Options) (l : Layout), OneLine o.timeId →
    l.pages ≠ [] → l.pages.length ≤ twoTo 64 →
    (∀ w ∈ l.widgets,
      (∀ text ∈ [some w.id, w.entity?, w.secondEntityId].reduceOption, OneLine text) ∧
      (∀ text ∈ [some w.id, w.title, w.entity?, w.secondEntityId].reduceOption, ¬ startsWith "!lambda" text) ∧
      ∀ e ∈ w.props, e.2.HasText fun text => ¬ startsWith "!lambda" text = true ∧
        (e.1 = "font_family" → OneLine text)) →
    Layout.ofConfiguration builtin (compile builtin o l .retained).output.text =
      ({ pages := (List.range l.pages.length).map Page.make }, []) := by
  intro h
  have hpages := congrArg (fun r => r.1.pages.length) <| h {} taggedLayout (by decide) (by decide) (by decide) <|
    List.forall_mem_singleton.mpr ⟨by decide, by decide, List.forall_mem_singleton.mpr ⟨by decide, by decide⟩⟩
  exact absurd hpages (by decide +kernel)

end Dashboard.Registry
