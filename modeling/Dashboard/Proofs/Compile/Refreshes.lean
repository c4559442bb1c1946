import Dashboard.Proofs.Compile.Composition
import Dashboard.Proofs.Compile.Declared
import Dashboard.Proofs.Compile.Emitted
import Dashboard.Proofs.Compile.Invariants
import Dashboard.Proofs.Kind.Named
/-!
# Refresh actions

In a retained document an entity refreshes nodes by their ids. Nodes come from the widgets that were
emitted. Refresh actions are registered afterwards, for all widgets of a kind that resolves entities, those
that failed included. So an action can name a node that is missing, but only for a widget that reads an
entity and failed.
-/

namespace Dashboard

open Emission Number

namespace RetainedDocument

def Shows (d : RetainedDocument) (id : String) : Prop := ∃ p ∈ d.pages, ∃ n ∈ p.widgets, n.IsNamed id

/-- An entity of the document refreshes the node with an id. -/
def Refreshes (d : RetainedDocument) (id : String) : Prop :=
  ∃ x ∈ d.sensors, "lvgl.widget.refresh: " ++ id ∈ x.actions

instance (d : RetainedDocument) (id : String) : Decidable (d.Refreshes id) :=
  inferInstanceAs (Decidable (∃ x ∈ d.sensors, _ ∈ x.actions))

end RetainedDocument

theorem Setting.refreshAction?_retained {s : Setting} (hs : s.target = .retained) (id : String) :
    s.refreshAction? id = some ("lvgl.widget.refresh: " ++ id) := by
  rw [refreshAction?, hs]

/-! ## Actions that are registered -/

namespace Triggers

/-- All actions of all entities belong to a set. -/
def RunsWithin (A : Set String) (t : Triggers) : Prop := ∀ e ∈ t.numeric ++ t.text, ∀ a ∈ e.2, a.1 ∈ A

variable {A : Set String} {t : Triggers}

theorem runsWithin_empty (A : Set String) : RunsWithin A {} := fun _ he => absurd he List.not_mem_nil

theorem runsWithin_put {actions : Actions} (h : ∀ e ∈ actions, ∀ a ∈ e.2, a.1 ∈ A) {entity action : String}
    (haction : action ∈ A) :
    ∀ e ∈ Table.put entity (((actions.find? entity).getD []).put action ()) actions, ∀ a ∈ e.2, a.1 ∈ A := by
  intro e he a ha
  rcases Table.mem_put he with rfl | he
  · rcases Table.mem_put ha with rfl | ha
    · exact haction
    · cases hfound : actions.find? entity with
      | none =>
        rw [hfound] at ha
        exact absurd ha List.not_mem_nil
      | some held =>
        rw [hfound] at ha
        exact h (entity, held) (Table.mem_of_find? hfound) a ha
  · exact h e he a ha

theorem RunsWithin.register (h : t.RunsWithin A) (entity : String) {action : String} (haction : action ∈ A) :
    (t.register entity action).RunsWithin A := by
  obtain ⟨hnumeric, htext⟩ := List.forall_mem_append.mp h
  unfold Triggers.register change
  cases Entity.normalize? entity with
  | none => exact h
  | some e =>
    by_cases his : Entity.isText e = true
    · simp only [his, if_true]
      exact List.forall_mem_append.mpr ⟨hnumeric, runsWithin_put htext haction⟩
    · simp only [his]
      exact List.forall_mem_append.mpr ⟨runsWithin_put hnumeric haction, htext⟩

end Triggers

/-- The entities whose changes concern a widget. -/
def Widget.entities (w : Widget) : List String :=
  [w.entity?, w.secondEntityId].filterMap fun raw => raw.bind Entity.normalize?

/-- A widget that its kind has drawn again when an entity changes. -/
def Widget.IsWatched (g : Registry) (t : Target) (w : Widget) : Prop :=
  w.entities ≠ [] ∧ ∃ k, g.kind? w.kind = some k ∧ k.descriptor.supports .resolveEntities = true ∧
    k.descriptor.supportsTarget t = true

/-- What makes the nodes and the refresh actions of a kind accountable. -/
structure WidgetKind.IsTracked (k : WidgetKind) : Prop where
  oblivious : k.IsOblivious
  nodes : k.serves .retained = true → k.NamesNodes
  collects : k.CollectsApart
  resolves : k.descriptor.supports .resolveEntities = true → k.resolve = Kind.resolveWidgets

theorem WidgetKind.IsTracked.resolvesInCommon {k : WidgetKind} (hk : k.IsTracked) : k.ResolvesInCommon :=
  resolvesInCommon_of_supports hk.resolves

theorem WidgetKind.isTracked_of_builtin {k : WidgetKind} (hk : k ∈ Kind.builtin) : k.IsTracked where
  oblivious := isOblivious_of_builtin hk
  nodes := namesNodes_of_builtin hk
  collects := collectsApart_of_builtin hk
  resolves := (isAccounted_of_builtin hk).resolves

namespace Registry

variable {g : Registry} {s : Setting} {r : Resources} {A : Set String}

/-! ## Emitting leaves the entities alone -/

theorem triggers_compilePages (hg : g.All WidgetKind.IsTracked) (hs : s.target = .retained) (index : Nat)
    (ps : List Page) (r : Resources) : (compilePages g s index ps r).2.triggers = r.triggers := by
  have hkeeps : ∀ p ∈ ps, ∀ w ∈ p.widgets, w.Yields g s (fun r' => r'.triggers = r.triggers) fun _ => True :=
    fun p _ w _ k hk _ => WidgetKind.yields_emit_retained hs ((hg w.kind k hk).collects s w _) fun _ _ _ => trivial
  exact (compilePages_yields Content.isGathered_true hkeeps index rfl).2

/-! ## Resolving registers actions of watched widgets -/

theorem keeps_runsWithin (hs : s.target = .retained) {w : Widget}
    (haction : w.IsWatched g .retained → "lvgl.widget.refresh: " ++ w.id ∈ A) :
    w.Keeps g s fun t => t.RunsWithin A where
  resolved := by
    intro k hk hentities htarget raw hraw entity action hentity hrefresh t ht
    rw [Setting.refreshAction?_retained hs] at hrefresh
    have hreads : w.entities ≠ [] := List.ne_nil_of_mem (List.mem_filterMap.mpr ⟨raw, hraw, hentity⟩)
    exact ht.register entity (Option.some.inj hrefresh ▸ haction ⟨hreads, k, hk, hentities, hs ▸ htarget⟩)
  guard := fun hguard => nomatch hs.symm.trans hguard

/-! ## Retained documents -/

variable {o : Options} {l : Layout} {d : RetainedDocument}

theorem runsWithin_resourcesOf (hg : g.All WidgetKind.IsTracked) (o : Options) (l : Layout) :
    (resourcesOf g o l .retained).triggers.RunsWithin
      {a | ∃ w ∈ l.widgets, w.IsWatched g .retained ∧ a = "lvgl.widget.refresh: " ++ w.id} := by
  refine resourcesOf_keeps (fun kind k hk => (hg kind k hk).resolvesInCommon)
    (fun w hw => keeps_runsWithin rfl fun hwatched => ⟨w, hw, hwatched, rfl⟩) ?_
  rw [triggers_compilePages hg rfl]
  exact Triggers.runsWithin_empty _

/-- A refresh action names a watched widget. -/
theorem exists_watched_of_refreshes (hg : g.All WidgetKind.IsTracked)
    (hd : (compile g o l .retained).output = .retained d) {id : String} (h : d.Refreshes id) :
    ∃ w ∈ l.widgets, w.IsWatched g .retained ∧ w.id = id := by
  obtain rfl := (Output.retained.inj hd).symm
  obtain ⟨x, hx, haction⟩ := h
  change x ∈ sensorsOf (settingOf o l .retained) (resourcesOf g o l .retained) at hx
  rw [sensorsOf] at hx
  split at hx
  · obtain ⟨e, he, rfl⟩ := List.mem_map.mp (List.mem_mergeSort.mp hx)
    obtain ⟨a, ha, hname⟩ := List.mem_map.mp haction
    obtain ⟨w, hw, hwatched, hid⟩ := runsWithin_resourcesOf hg o l e he a ha
    have hsame : "lvgl.widget.refresh: " ++ w.id = "lvgl.widget.refresh: " ++ id := hid.symm.trans hname
    rw [String.append_right_inj] at hsame
    exact ⟨w, hw, hwatched, hsame⟩
  · exact absurd hx List.not_mem_nil

theorem mem_nodes_join {c : Content} {cs : List Content} {n : RetainedNode} (hc : c ∈ cs) (hn : n ∈ c.nodes) :
    n ∈ (Content.join cs).nodes := by
  induction cs with
  | nil => exact absurd hc List.not_mem_nil
  | cons c' cs ih =>
    rcases List.mem_cons.mp hc with rfl | hc
    · exact List.mem_append_left _ hn
    · exact List.mem_append_right _ (ih hc)

/-- The content of an emitted widget is a node with its id. -/
theorem exists_node_of_isEmitted (hg : g.All WidgetKind.IsTracked) (hs : s.target = .retained) {w : Widget}
    (h : w.IsEmitted g s) : ∃ n ∈ (compileWidget g s 0 w {}).1.content.nodes, n.IsNamed w.id := by
  obtain ⟨k, c, hk, hserves, hemit⟩ := h.emit fun kind k hk => (hg kind k hk).oblivious
  obtain ⟨after, he⟩ := hemit {}
  obtain ⟨-, middle, -, hcontent⟩ := ok_of_bind he
  obtain ⟨ns, hns, rfl, -⟩ := WidgetKind.content_retained hs hcontent
  obtain ⟨n, rfl, hnamed⟩ := (hg w.kind k hk).nodes (hs ▸ hserves) s middle w ns hns
  rw [compileWidget_emitted hk hserves he]
  exact ⟨n, List.mem_singleton_self n, hnamed⟩

/-- An emitted widget has its node on a page. -/
theorem shows_of_isEmitted (hg : g.All WidgetKind.IsTracked)
    (hd : (compile g o l .retained).output = .retained d) {w : Widget} (hw : w ∈ l.widgets)
    (h : w.IsEmitted g (settingOf o l .retained)) : d.Shows w.id := by
  obtain rfl := (Output.retained.inj hd).symm
  obtain ⟨p, hp, hwp⟩ := List.mem_flatMap.mp hw
  obtain ⟨n, hn, hnamed⟩ := exists_node_of_isEmitted hg rfl h
  obtain ⟨i, hi⟩ := List.mem_iff_getElem?.mp hp
  have hmem := mem_compilePages (fun kind k hk => (hg kind k hk).oblivious) (settingOf o l .retained)
    (List.mem_zipIdx_iff_getElem?.mpr hi)
  refine ⟨_, List.mem_map_of_mem (f := retainedPage) hmem, n, ?_, hnamed⟩
  change n ∈ (Progress.join _).content.nodes
  rw [Progress.content_join, List.map_map]
  exact mem_nodes_join (List.mem_map_of_mem hwp) hn

end Registry

/-- No action refreshes a node that no page shows, and none is registered for a widget that is left out. -/
structure RetainedDocument.IsRefreshed (g : Registry) (s : Setting) (l : Layout) (d : RetainedDocument) :
    Prop where
  shown : ∀ id, d.Refreshes id → d.Shows id
  leftOut : ∀ w ∈ l.widgets, ¬ w.IsEmitted g s → ¬ d.Refreshes w.id

namespace Registry

variable {o : Options} {l : Layout}

theorem isTracked_builtin : builtin.All WidgetKind.IsTracked := all_ofKinds fun _ => WidgetKind.isTracked_of_builtin

/-- No dangling refresh. If the widgets of a layout have ids of their own, and those that read an entity are
emitted, then every refresh action of the retained document names a node of the document, and no widget that
was left out is refreshed. -/
theorem compile_isRefreshed (o : Options) (hids : (l.widgets.map Widget.id).Nodup)
    (hemitted : ∀ w ∈ l.widgets, w.IsWatched builtin .retained → w.IsEmitted builtin (settingOf o l .retained)) :
    ∃ d, (compile builtin o l .retained).output = .retained d ∧
      d.IsRefreshed builtin (settingOf o l .retained) l := by
  refine ⟨_, rfl, fun id h => ?_, fun w hw hleft h => ?_⟩
  · obtain ⟨v, hv, hwatched, rfl⟩ := exists_watched_of_refreshes isTracked_builtin rfl h
    exact shows_of_isEmitted isTracked_builtin rfl hv (hemitted v hv hwatched)
  · obtain ⟨v, hv, hwatched, hid⟩ := exists_watched_of_refreshes isTracked_builtin rfl h
    obtain rfl := List.inj_on_of_nodup_map hids hv hw hid
    exact hleft (hemitted v hv hwatched)

/-- A chart and a label that read entities, a chart without one, and a widget of an unknown kind. -/
def watchedLayout : Layout :=
  { pages := [{ id := "page_0", name := "Hall", widgets :=
      [{ Widget.make "history" "chart" with entityId := some "sensor.hall" }, .make "empty" "chart",
        { Widget.make "label" "text" with secondEntityId := some "sensor.hall" }, .make "gauge" "dial"] }] }

theorem compile_isRefreshed_watched :
    (compile builtin {} watchedLayout .retained).emitted = 2 ∧
      ∃ d, (compile builtin {} watchedLayout .retained).output = .retained d ∧
        d.IsRefreshed builtin (settingOf {} watchedLayout .retained) watchedLayout := by
  refine ⟨by decide +kernel, compile_isRefreshed {} (by decide) fun w hw hwatched => ?_⟩
  have hcases : ∀ w ∈ watchedLayout.widgets, w.entities = [] ∨
      (compileWidget builtin (settingOf {} watchedLayout .retained) 0 w {}).1.emitted ≠ 0 := by
    decide +kernel
  exact isEmitted_of_compileWidget ((hcases w hw).resolve_left hwatched.1)

/-- A chart of an unknown style, which fails. -/
def unstyledLayout : Layout :=
  { pages := [{ id := "page_0", name := "Hall", widgets :=
      [{ Widget.make "history" "chart" with entityId := some "sensor.hall", props := [("type", .string "pie")] }] }] }

/-- A chart that fails is refreshed by its entity all the same. -/
theorem not_forall_isRefreshed : ¬ ∀ (o : Options) (l : Layout), (l.widgets.map Widget.id).Nodup →
    ∃ d, (compile builtin o l .retained).output = .retained d ∧
      d.IsRefreshed builtin (settingOf o l .retained) l := by
  intro h
  obtain ⟨d, hd, hrefreshed⟩ := h {} unstyledLayout (by decide)
  obtain rfl := (Output.retained.inj hd).symm
  obtain ⟨p, hp, n, hn, -⟩ := hrefreshed.shown "history" (by decide +kernel)
  obtain ⟨q, hq, rfl⟩ := List.mem_map.mp hp
  have hnone : ∀ q ∈ (compilePages builtin (settingOf {} unstyledLayout .retained) 0 unstyledLayout.pages {}).1,
      (retainedPage q).widgets.length = 0 := by
    decide +kernel
  exact absurd (List.length_pos_of_mem hn) (by rw [hnone q hq]; exact Nat.lt_irrefl 0)

end Registry

end Dashboard
