import Dashboard.Proofs.Compile.Document
import Dashboard.Proofs.Compile.Refreshes
import Dashboard.Proofs.Kind.Components
/-!
# Component ids

The id of a component is the reference of an entity, or the id of a chart behind a prefix, with underscores for
all signs but letters and digits. So two entities may come out with one id, and so may two charts, of which
the later one takes the place of the earlier. A document is sound if no two references and no two charts of
the layout meet in this way.
-/

namespace Dashboard

open Emission Text

/-- What stands under a key of its own in a list is all that is found under the key. -/
theorem filter_eq_singleton {α : Type} {f : α → String} {as : List α} (h : (as.map f).Nodup) {a : α}
    (ha : a ∈ as) : as.filter (fun b => f b = f a) = [a] := by
  refine List.perm_singleton.mp ((List.perm_ext_iff_of_nodup ((List.Nodup.of_map f h).filter _)
    (List.nodup_singleton a)).mpr fun b => ?_)
  rw [List.mem_filter, List.mem_singleton, decide_eq_true_iff]
  constructor
  · exact fun hb => List.inj_on_of_nodup_map h hb.1 ha hb.2
  · rintro rfl
    exact ⟨ha, rfl⟩

/-! ## Entities -/

/-- The entities that the widgets of a layout refer to, in their guards too. -/
def Layout.entities (l : Layout) : List String :=
  l.widgets.flatMap fun w => w.entities ++ w.condition.guardEntity?.toList

namespace Layout

variable {l : Layout} {w : Widget} {entity : String}

theorem mem_entities (hw : w ∈ l.widgets) {raw : Option String} (hraw : raw ∈ [w.entity?, w.secondEntityId])
    (h : raw.bind Entity.normalize? = some entity) : entity ∈ l.entities :=
  List.mem_flatMap.mpr ⟨w, hw, List.mem_append_left _ (List.mem_filterMap.mpr ⟨raw, hraw, h⟩)⟩

theorem mem_entities_of_guard (hw : w ∈ l.widgets) (h : w.condition.guardEntity? = some entity) :
    entity ∈ l.entities :=
  List.mem_flatMap.mpr ⟨w, hw, List.mem_append_right _ (Option.mem_toList.mpr h)⟩

end Layout

/-- The order of the declarations does not matter for their ids. -/
theorem SensorDecl.nodup_ids_iff (t : Triggers) : ((ofTriggers t).map SensorDecl.id).Nodup ↔
    ((Table.keys (t.numeric ++ t.text)).map Entity.componentId).Nodup := by
  rw [ofTriggers, ((List.mergeSort_perm _ _).map _).nodup_iff, Table.keys, List.map_map, List.map_map]
  rfl

theorem Triggers.IsFrom.nodup_ids {E : Set String} {t : Triggers} (h : t.IsFrom E)
    (hE : Set.InjOn Entity.componentId E) : ((SensorDecl.ofTriggers t).map SensorDecl.id).Nodup := by
  have hfrom : ∀ e ∈ Table.keys (t.numeric ++ t.text), e ∈ E := List.forall_mem_map.mpr h.mem
  exact (SensorDecl.nodup_ids_iff t).mpr
    (h.nodup_keys.map_on fun e he e' he' => hE (hfrom e he) (hfrom e' he'))

/-! ## Graphs -/

/-- Each graph stands under its id, and it is the graph of a chart among certain widgets. -/
structure Graphs.AreOf (ws : List Widget) (t : Graphs) : Prop where
  sorted : Table.Sorted t
  graphs : ∀ e ∈ t, e.2.id = e.1 ∧ ∃ w ∈ ws, w.kind = "chart" ∧ Kind.Chart.IsGraphOf w e.2

theorem Graphs.AreOf.add {ws : List Widget} {t : Graphs} (h : t.AreOf ws) {w : Widget} (hw : w ∈ ws)
    (hkind : w.kind = "chart") {graph : Graph} (hgraph : Kind.Chart.IsGraphOf w graph) :
    Graphs.AreOf ws (Graphs.add graph t).2 where
  sorted := Table.sorted_put _ _ h.sorted
  graphs := by
    intro e he
    rcases Table.mem_put he with rfl | he
    · exact ⟨rfl, w, hw, hkind, hgraph⟩
    · exact h.graphs e he

theorem Graphs.AreOf.nodup_ids {ws : List Widget} {t : Graphs} (h : t.AreOf ws) :
    ((Table.values t).map Graph.id).Nodup := by
  have hids : (Table.values t).map Graph.id = Table.keys t := by
    rw [Table.values, List.map_map]
    exact List.map_congr_left fun e he => (h.graphs e he).1
  exact hids ▸ Table.nodup_keys h.sorted

namespace Kind.Chart

variable {s : Setting} {w : Widget} {r after : Resources}

theorem mem_graphs_of_collect (hs : s.target = .procedural) {u : Unit}
    (h : runWith (collect s w) r = (.ok u, after)) : graphId w ∈ Table.keys after.graphs := by
  unfold collect at h
  obtain ⟨p, _, -, hstyled⟩ := ok_of_bind h
  obtain ⟨style, _, -, hshown⟩ := ok_of_bind hstyled
  obtain ⟨read, _, -, htitled⟩ := ok_of_bind hshown
  obtain ⟨font, _, -, hgraph⟩ := ok_of_bind htitled
  rw [if_pos hs] at hgraph
  obtain ⟨id, last, hadd, hend⟩ := ok_of_bind hgraph
  obtain ⟨-, rfl⟩ := ok_of_register hadd
  obtain ⟨-, rfl⟩ := ok_of_pure hend
  exact Table.mem_keys_put.mpr (.inl rfl)

theorem exists_block_of_procedural {ls : List String} (h : runWith (procedural s w) r = (.ok ls, after)) :
    ∃ p read color font, schema.read w = .ok p ∧ entityRead? w = some read ∧ ls = block p w color font := by
  unfold procedural at h
  obtain ⟨p, _, hp, hshown⟩ := ok_of_bind h
  obtain ⟨read, _, hread, hdrawn⟩ := ok_of_bind hshown
  obtain ⟨color, _, -, htitled⟩ := ok_of_bind hdrawn
  obtain ⟨font, _, -, hblock⟩ := ok_of_bind htitled
  obtain ⟨rfl, -⟩ := ok_of_pure hblock
  exact ⟨p, read, color, font, Schema.read_of_readForExport (ok_of_ofExcept hp).1,
    entityRead?_of_entityOf (ok_of_ofExcept hread).1, rfl⟩

/-- The block of a chart has its call, as the last statement inside the guard. -/
theorem exists_graphCall_mem_block (p : Props) (w : Widget) (color : String) (font : Option String) :
    ∃ column, spaces column ++ graphCall w color ∈ block p w color font := by
  have hfinish : ∀ b : Block, spaces b.indent ++ graphCall w color ∈ (b.line (graphCall w color)).finish := by
    intro b
    unfold Block.finish
    split
    · exact List.mem_append_left _ (List.mem_append_right _ (List.mem_singleton_self _))
    · exact List.mem_append_right _ (List.mem_singleton_self _)
  exact ⟨_, hfinish _⟩

/-- What is known of a chart that is emitted. -/
theorem exists_block_of_emit (hs : s.target = .procedural) {c : Content}
    (h : runWith (kind.emit s w) r = (.ok c, after)) : graphId w ∈ Table.keys after.graphs ∧
      ∃ p read color font, schema.read w = .ok p ∧ entityRead? w = some read ∧
        c.statements = block p w color font := by
  obtain ⟨u, middle, hcollect, hcontent⟩ := ok_of_bind h
  obtain ⟨ls, hls, rfl⟩ := WidgetKind.content_procedural hs hcontent
  have hany : kind.RegistersWithin w fun _ => True := registersWithin fun _ _ => trivial
  have hkeeps := hany (fun _ graphs => graphId w ∈ Table.keys graphs) s fun _ _ _ _ hmem =>
    Table.mem_keys_put.mpr (.inr hmem)
  exact ⟨(hkeeps.2 middle (mem_graphs_of_collect hs hcollect) ls after hls).2, exists_block_of_procedural hls⟩

end Kind.Chart

namespace Registry

/-- A registry in which charts, and only charts, have graphs. -/
structure IsCharted (g : Registry) : Prop where
  chart : g.kind? "chart" = some Kind.Chart.kind
  registers : ∀ w k, g.kind? w.kind = some k →
    k.RegistersWithin w fun graph => w.kind = "chart" ∧ Kind.Chart.IsGraphOf w graph
  oblivious : g.All WidgetKind.IsOblivious
  accounted : g.All WidgetKind.IsAccounted

theorem isCharted_builtin : builtin.IsCharted where
  chart := rfl
  registers := fun w _ hk => (kind?_ofKinds hk).2 ▸ Kind.registersWithin_of_builtin (kind?_ofKinds hk).1 w
  oblivious := all_ofKinds fun _ => WidgetKind.isOblivious_of_builtin
  accounted := all_ofKinds fun _ => WidgetKind.isAccounted_of_builtin

variable {g : Registry} {s : Setting} {o : Options} {l : Layout} {w : Widget}

theorem yields_components (hg : g.IsCharted) (hs : s.target = .procedural) {I : Triggers → Graphs → Prop}
    (hI : w.kind = "chart" → ∀ graph, Kind.Chart.IsGraphOf w graph → ∀ triggers graphs, I triggers graphs →
      I triggers (Graphs.add graph graphs).2) :
    w.Yields g s (Resources.HasComponents I) fun _ => True := by
  intro k hk _
  obtain ⟨hcollect, hdraws⟩ := hg.registers w k hk I s fun graph hgraph => hI hgraph.1 graph hgraph.2
  exact WidgetKind.yields_emit_procedural hs hcollect hdraws

/-- After all widgets there are no entities yet, and the graphs are those of the charts. -/
theorem components_compilePages (hg : g.IsCharted) (hs : s.target = .procedural) (ps : List Page) :
    (compilePages g s 0 ps {}).2.HasComponents fun triggers graphs =>
      triggers = {} ∧ graphs.AreOf (ps.flatMap Page.widgets) := by
  refine (compilePages_yields Content.isGathered_true (fun p hp w hw => yields_components hg hs ?_) 0 ?_).2
  · intro hkind graph hgraph triggers graphs h
    exact ⟨h.1, h.2.add (List.mem_flatMap.mpr ⟨p, hp, hw⟩) hkind hgraph⟩
  · exact ⟨rfl, List.Pairwise.nil, fun _ he => absurd he List.not_mem_nil⟩

theorem graphs_resourcesOf (hg : g.IsCharted) (o : Options) (l : Layout) :
    (resourcesOf g o l .procedural).graphs =
      (compilePages g (settingOf o l .procedural) 0 l.pages {}).2.graphs := by
  obtain ⟨triggers, htriggers⟩ := resourcesOf_triggers
    (fun kind k hk => (hg.accounted kind k hk).resolvesInCommon.triggersOnly) o l .procedural
  rw [htriggers]

theorem isFrom_resourcesOf (hg : g.IsCharted) (o : Options) (l : Layout) :
    (resourcesOf g o l .procedural).triggers.IsFrom {e | e ∈ l.entities} := by
  refine resourcesOf_keeps (fun kind k hk => (hg.accounted kind k hk).resolvesInCommon)
    (fun w hw => ⟨?_, fun _ => ?_⟩) ?_
  · exact fun k _ _ _ raw hraw => Setting.keeps_isFrom _ w.id fun e he => Layout.mem_entities hw hraw he
  · exact Setting.keeps_isFrom _ w.id fun e he => Layout.mem_entities_of_guard hw he
  · rw [(components_compilePages hg rfl l.pages).1]
    exact Triggers.isFrom_empty _

/-- An emitted chart has a graph under its id. -/
theorem mem_graphs_of_isEmitted (hg : g.IsCharted) (hw : w ∈ l.widgets) (hkind : w.kind = "chart")
    (h : w.IsEmitted g (settingOf o l .procedural)) :
    Kind.Chart.graphId w ∈ Table.keys (resourcesOf g o l .procedural).graphs := by
  obtain ⟨p, hp, hwp⟩ := List.mem_flatMap.mp hw
  obtain ⟨k, c, hk, hserves, hemit⟩ := h.emit hg.oblivious
  obtain rfl : Kind.Chart.kind = k := Option.some.inj (hg.chart.symm.trans (hkind ▸ hk))
  rw [graphs_resourcesOf hg]
  refine compilePages_reaches
    (I := Resources.HasComponents fun _ graphs => Kind.Chart.graphId w ∈ Table.keys graphs)
    (fun q _ v _ => yields_components hg rfl fun _ _ _ _ _ hmem => Table.mem_keys_put.mpr (.inr hmem))
    hp hwp ?_ 0 {}
  intro page r
  obtain ⟨after, he⟩ := hemit r
  rw [compileWidget_emitted hk hserves he]
  exact (Kind.Chart.exists_block_of_emit rfl he).1

end Registry

/-! ## Documents -/

/-- No two entities of a layout, and no two charts of it, have a component id in common. -/
structure Layout.HasOwnComponents (l : Layout) : Prop where
  entities : ∀ e ∈ l.entities, ∀ e' ∈ l.entities, Entity.componentId e = Entity.componentId e' → e = e'
  charts : ∀ w ∈ l.widgets, w.kind = "chart" → ∀ w' ∈ l.widgets, w'.kind = "chart" →
    Entity.componentId w.id = Entity.componentId w'.id → w.id = w'.id

/-- The block of a chart is on a page. The call in it names a graph that is declared once, with the measures of
the chart, its duration and its thickness, and with the component of its entity, which is declared once too. -/
structure ProceduralDocument.ShowsChart (d : ProceduralDocument) (q : ProceduralPage) (w : Widget)
    (p : Kind.Chart.Props) (read : EntityRead) : Prop where
  props : Kind.Chart.schema.read w = .ok p
  entity : Kind.entityRead? w = some read
  drawn : ∃ color font column, Kind.Chart.block p w color font <:+: q.body ∧
    spaces column ++ Kind.Chart.graphCall w color ∈ Kind.Chart.block p w color font
  graph : d.graphs.filter (fun graph => graph.id = Kind.Chart.graphId w) =
    [{ id := Kind.Chart.graphId w, sensor := read.id, duration := p.duration, width := w.rect.width,
       height := w.rect.height, lineThickness := p.lineThickness }]
  sensor : ∃ actions, d.sensors.filter (fun x => x.id = read.id) = [.of read.entity actions]

/-- Entities have different components, and each chart that is emitted shows a graph of its own. -/
structure ProceduralDocument.KeepsApart (g : Registry) (s : Setting) (l : Layout) (d : ProceduralDocument) :
    Prop where
  sensors : (d.sensors.map SensorDecl.id).Nodup
  charts : ∀ p ∈ l.pages.zipIdx, ∀ w ∈ p.1.widgets, w.kind = "chart" → w.IsEmitted g s →
    ∃ q ∈ d.pages, q.index = p.2 ∧ ∃ props read, d.ShowsChart q w props read

namespace Registry

variable {g : Registry} {s : Setting} {o : Options} {l : Layout} {w : Widget}

theorem nodup_sensors (hg : g.IsCharted) (hl : l.HasOwnComponents) :
    ((document g o l).sensors.map SensorDecl.id).Nodup := by
  change ((sensorsOf (settingOf o l .procedural) (resourcesOf g o l .procedural)).map SensorDecl.id).Nodup
  unfold sensorsOf
  split
  · exact (isFrom_resourcesOf hg o l).nodup_ids fun e he e' he' => hl.entities e he e' he'
  · exact List.nodup_nil

theorem filter_graphs (hg : g.IsCharted) (hids : (l.widgets.map Widget.id).Nodup) (hl : l.HasOwnComponents)
    (hw : w ∈ l.widgets) (hkind : w.kind = "chart") (h : w.IsEmitted g (settingOf o l .procedural))
    {graph : Graph} (hgraph : Kind.Chart.IsGraphOf w graph) :
    (document g o l).graphs.filter (fun other => other.id = Kind.Chart.graphId w) = [graph] := by
  have hof : (resourcesOf g o l .procedural).graphs.AreOf l.widgets :=
    graphs_resourcesOf hg o l ▸ (components_compilePages hg rfl l.pages).2
  obtain ⟨e, he, hid⟩ := List.mem_map.mp (mem_graphs_of_isEmitted hg hw hkind h)
  obtain ⟨hkey, v, hv, hvkind, hvgraph⟩ := hof.graphs e he
  have hname : e.2.id = Kind.Chart.graphId w := hkey.trans hid
  have hsame : v = w := by
    obtain ⟨p, read, -, -, hvgraph⟩ := hvgraph
    have hslug : Kind.Chart.graphId v = Kind.Chart.graphId w := by rw [← hname, hvgraph]; rfl
    exact List.inj_on_of_nodup_map hids hv hw
      (hl.charts v hv hvkind w hw hkind ((String.append_right_inj _).mp hslug))
  obtain rfl : graph = e.2 := hgraph.eq (hsame ▸ hvgraph)
  rw [← hname]
  exact filter_eq_singleton hof.nodup_ids (List.mem_map_of_mem he)

theorem filter_sensors (hg : g.IsCharted) (ho : o.emitSensors = true) (hl : l.HasOwnComponents)
    (hw : w ∈ l.widgets) (hkind : w.kind = "chart") {read : EntityRead} (hread : Kind.entityRead? w = some read) :
    ∃ actions, (document g o l).sensors.filter (fun x => x.id = read.id) = [.of read.entity actions] := by
  obtain ⟨raw, hraw, hof⟩ := Option.bind_eq_some_iff.mp hread
  obtain ⟨entity, hentity, rfl⟩ := Option.map_eq_some_iff.mp hof
  have hhas : (resourcesOf g o l .procedural).triggers.Has entity :=
    has_of_shown hg.accounted (.inl rfl) hw (hkind ▸ hg.chart) (by decide) (by decide)
      (Option.bind_eq_some_iff.mpr ⟨raw, hraw, hentity⟩)
  obtain ⟨actions, hmem⟩ := exists_sensor (s := settingOf o l .procedural) ho hhas
  exact ⟨actions, filter_eq_singleton (nodup_sensors hg hl) hmem⟩

theorem exists_page_of_mem (hg : g.IsCharted) {p : Page} {i : Nat} (hp : (p, i) ∈ l.pages.zipIdx)
    (hw : w ∈ p.widgets) : ∃ q ∈ (document g o l).pages, q.index = i ∧
      (compileWidget g (settingOf o l .procedural) 0 w {}).1.content.statements <:+: q.body := by
  refine ⟨_, List.mem_map_of_mem (f := proceduralPage) (mem_compilePages hg.oblivious _ hp), rfl, ?_⟩
  change _ <:+: (Progress.join _).content.statements
  rw [Progress.content_join, List.map_map, Content.statements_join, List.flatMap_map, List.flatMap_def]
  exact List.infix_of_mem_flatten (List.mem_map_of_mem hw)

theorem keepsApart_document (hg : g.IsCharted) (ho : o.emitSensors = true)
    (hids : (l.widgets.map Widget.id).Nodup) (hl : l.HasOwnComponents) :
    (document g o l).KeepsApart g (settingOf o l .procedural) l where
  sensors := nodup_sensors hg hl
  charts := by
    rintro ⟨p, i⟩ hp w hwp hkind h
    have hw : w ∈ l.widgets := List.mem_flatMap.mpr ⟨p, List.fst_mem_of_mem_zipIdx hp, hwp⟩
    obtain ⟨q, hq, hindex, hbody⟩ := exists_page_of_mem (o := o) hg hp hwp
    obtain ⟨k, c, hk, hserves, hemit⟩ := h.emit hg.oblivious
    obtain ⟨after, he⟩ := hemit {}
    obtain rfl : Kind.Chart.kind = k := Option.some.inj (hg.chart.symm.trans (hkind ▸ hk))
    obtain ⟨-, props, read, color, font, hprops, hread, hblock⟩ := Kind.Chart.exists_block_of_emit rfl he
    rw [compileWidget_emitted hk hserves he, hblock] at hbody
    obtain ⟨column, hcall⟩ := Kind.Chart.exists_graphCall_mem_block props w color font
    exact ⟨q, hq, hindex, props, read, hprops, hread, ⟨color, font, column, hbody, hcall⟩,
      filter_graphs hg hids hl hw hkind h ⟨props, read, hprops, hread, rfl⟩,
      filter_sensors hg ho hl hw hkind hread⟩

/-- Components keep apart. If the widgets of a layout have ids of their own, and its entities and its charts have
different component ids, then the entities of the drawing code are declared under different ids, and each
chart that is emitted draws the graph that was declared for it. -/
theorem compile_keepsApart {o : Options} {l : Layout} (ho : o.emitSensors = true)
    (hids : (l.widgets.map Widget.id).Nodup) (hl : l.HasOwnComponents) :
    ∃ d, (compile builtin o l .procedural).output = .procedural d ∧
      d.KeepsApart builtin (settingOf o l .procedural) l :=
  ⟨_, rfl, keepsApart_document isCharted_builtin ho hids hl⟩

/-- Two charts of one entity, whose ids are nearly the same, and a clock that is guarded by another entity. -/
def historyLayout : Layout :=
  { pages := [
      { id := "page_0", name := "Hall", widgets := [
        { Widget.make "history-1" "chart" with entityId := some "sensor.hall" },
        { Widget.make "now" "datetime" with
          condition := { entityId := some "binary_sensor.hall", state := some "on" } }] },
      { id := "page_1", name := "Week", widgets := [
        { Widget.make "history 2" "chart" with
          entityId := some "sensor.hall", props := [("duration", .string "7d")] }] }] }

theorem compile_keepsApart_history :
    (compile builtin {} historyLayout .procedural).emitted = 3 ∧
      ∃ d, (compile builtin {} historyLayout .procedural).output = .procedural d ∧
        d.KeepsApart builtin (settingOf {} historyLayout .procedural) historyLayout :=
  ⟨by decide +kernel, compile_keepsApart rfl (by decide) ⟨by decide, by decide⟩⟩

/-- Two texts that read different entities with one component id. -/
def sharedSensorLayout : Layout :=
  { pages := [{ id := "page_0", name := "Hall", widgets := [
      { Widget.make "a" "text" with entityId := some "sensor.hall-temp" },
      { Widget.make "b" "text" with entityId := some "sensor.hall_temp" }] }] }

def earlierChart : Widget := { Widget.make "a-b" "chart" with entityId := some "sensor.hall" }

/-- Two charts of different entities whose ids differ by one sign. -/
def sharedGraphLayout : Layout :=
  { pages := [{ id := "page_0", name := "Hall", widgets :=
      [earlierChart, { Widget.make "a_b" "chart" with entityId := some "sensor.attic" }] }] }

/-- Ids of their own are not enough: entities may meet in a component, and a chart may lose its graph to a later
chart. -/
theorem not_forall_keepsApart :
    (¬ ∀ (o : Options) (l : Layout), o.emitSensors = true → (l.widgets.map Widget.id).Nodup →
      ∃ d, (compile builtin o l .procedural).output = .procedural d ∧ (d.sensors.map SensorDecl.id).Nodup) ∧
    ¬ ∀ (o : Options) (l : Layout), o.emitSensors = true → (l.widgets.map Widget.id).Nodup →
      ∃ d, (compile builtin o l .procedural).output = .procedural d ∧
        ∀ p ∈ l.pages.zipIdx, ∀ w ∈ p.1.widgets, w.kind = "chart" →
          w.IsEmitted builtin (settingOf o l .procedural) →
            ∃ q ∈ d.pages, q.index = p.2 ∧ ∃ props read, d.ShowsChart q w props read := by
  refine ⟨fun h => ?_, fun h => ?_⟩
  · obtain ⟨d, hd, hsensors⟩ := h {} sharedSensorLayout rfl (by decide)
    obtain rfl := (Output.procedural.inj hd).symm
    have hids :=
      (SensorDecl.nodup_ids_iff (resourcesOf builtin {} sharedSensorLayout .procedural).triggers).mp hsensors
    exact absurd hids (by decide +kernel)
  · obtain ⟨d, hd, hcharts⟩ := h {} sharedGraphLayout rfl (by decide)
    obtain rfl := (Output.procedural.inj hd).symm
    have hemitted :
        (compileWidget builtin (settingOf {} sharedGraphLayout .procedural) 0 earlierChart {}).1.emitted ≠ 0 := by
      decide +kernel
    obtain ⟨q, -, -, props, read, hshows⟩ := hcharts _ (List.mem_singleton_self _) earlierChart
      List.mem_cons_self rfl (isEmitted_of_compileWidget hemitted)
    have hread : read.id = "sensor_hall" := congrArg EntityRead.id (Option.some.inj hshows.entity).symm
    have hgraph : ((document builtin {} sharedGraphLayout).graphs.filter fun graph =>
        graph.id = Kind.Chart.graphId earlierChart).map Graph.sensor = ["sensor_hall"] :=
      (congrArg (List.map Graph.sensor) hshows.graph).trans (congrArg (fun id => [id]) hread)
    exact absurd hgraph (by decide +kernel)

end Registry

end Dashboard
