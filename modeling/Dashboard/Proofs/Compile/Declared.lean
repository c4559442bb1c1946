import Dashboard.Proofs.Compile.Registrations
import Dashboard.Proofs.Kind.Declared
/-!
# Declared before use

Whatever the pages of a document refer to is declared in its sections. Fonts, constants and graphs are
registered while the widgets are emitted; entities are registered afterwards, for all widgets at once. A
widget that fails leaves nothing on its page, so what it registered can be forgotten.
-/

namespace Dashboard

open Emission

/-! ## Registered entities -/

namespace Triggers

/-- An entity that is declared. -/
def Has (t : Triggers) (entity : String) : Prop :=
  entity ∈ Table.keys t.numeric ∨ entity ∈ Table.keys t.text

variable {t : Triggers} {entity : String}

theorem Has.register (h : t.Has entity) (other action : String) : (t.register other action).Has entity := by
  unfold Triggers.register change
  cases Entity.normalize? other with
  | none => exact h
  | some e =>
    by_cases htext : Entity.isText e = true
    · simp only [htext, if_true]
      exact h.imp_right fun hmem => Table.mem_keys_put.mpr (.inr hmem)
    · simp only [htext]
      exact h.imp_left fun hmem => Table.mem_keys_put.mpr (.inr hmem)

theorem has_register (h : Entity.normalize? entity = some entity) (t : Triggers) (action : String) :
    (t.register entity action).Has entity := by
  unfold Triggers.register change
  rw [h]
  by_cases htext : Entity.isText entity = true
  · simp only [htext, if_true]
    exact .inr (Table.mem_keys_put.mpr (.inl rfl))
  · simp only [htext]
    exact .inl (Table.mem_keys_put.mpr (.inl rfl))

end Triggers

namespace Setting

/-- A firmware document, which has entities. -/
def IsFirmware (s : Setting) : Prop := s.target = .procedural ∨ s.target = .retained

theorem IsFirmware.exists_action {s : Setting} (hs : s.IsFirmware) (id : String) :
    ∃ action, s.refreshAction? id = some action := by
  unfold refreshAction?
  rcases hs with hs | hs
  · rw [hs]
    exact ⟨_, rfl⟩
  · rw [hs]
    exact ⟨_, rfl⟩

end Setting

namespace Kind

variable {s : Setting} {r : Resources} {entity : String}

theorem keeps_has (s : Setting) (entity id : String) (raw : Option String) :
    s.Keeps (fun t => t.Has entity) id raw := fun _ _ _ _ _ h => h.register _ _

theorem registerEntity_has (hs : s.IsFirmware) {raw : Option String}
    (h : raw.bind Entity.normalize? = some entity) (id : String) (r : Resources) :
    (registerEntity s id raw r).triggers.Has entity := by
  obtain ⟨action, haction⟩ := hs.exists_action id
  obtain ⟨t, -, ht⟩ := Option.bind_eq_some_iff.mp h
  unfold registerEntity Resources.registerRefresh
  rw [h, haction]
  exact Triggers.has_register (Entity.normalize?_of_normalize? ht) _ _

theorem foldl_has {f : Resources → Widget → Resources}
    (hf : ∀ r w, r.triggers.Has entity → (f r w).triggers.Has entity) {ws : List Widget} {w : Widget}
    (hw : w ∈ ws) (h : ∀ r, (f r w).triggers.Has entity) (r : Resources) :
    (ws.foldl f r).triggers.Has entity := by
  obtain ⟨front, back, rfl⟩ := List.append_of_mem hw
  rw [List.foldl_append, List.foldl_cons]
  exact foldl_keeps (I := fun t => t.Has entity) (fun w _ r => hf r w) (h _)

end Kind

namespace WidgetKind

/-- A kind whose drawing is accounted for, and which resolves entities in the common way if it does. -/
structure IsAccounted (k : WidgetKind) : Prop where
  declares : ∃ collected, k.Declares collected
  resolves : k.descriptor.supports .resolveEntities = true → k.resolve = Kind.resolveWidgets

theorem IsAccounted.resolvesInCommon {k : WidgetKind} (hk : k.IsAccounted) : k.ResolvesInCommon :=
  resolvesInCommon_of_supports hk.resolves

theorem isAccounted_of_builtin {k : WidgetKind} (hk : k ∈ Kind.builtin) : k.IsAccounted := by
  refine ⟨Kind.declares_of_builtin hk, fun hresolves => ?_⟩
  simp only [Kind.builtin, List.mem_cons, List.not_mem_nil, or_false] at hk
  rcases hk with rfl | rfl | rfl | rfl | rfl | rfl | rfl | rfl | rfl
  case inr.inl => rfl
  case inr.inr.inr.inr.inr.inl => rfl
  case inr.inr.inr.inr.inr.inr.inl => rfl
  all_goals exact absurd hresolves (by decide)

end WidgetKind

namespace Registry

variable {g : Registry} {s : Setting} {entity : String} {r : Resources}

theorem keeps_has (g : Registry) (s : Setting) (entity : String) (w : Widget) :
    w.Keeps g s fun t => t.Has entity :=
  ⟨fun _ _ _ _ raw _ => Kind.keeps_has s entity w.id raw, fun _ => Kind.keeps_has s entity w.id _⟩

theorem resolveKind_has (hg : g.All WidgetKind.IsAccounted) (hs : s.IsFirmware) {k : WidgetKind}
    {w : Widget} {ws : List Widget} (hw : w ∈ ws) (hk : g.kind? w.kind = some k)
    (hresolves : k.descriptor.supports .resolveEntities = true)
    (htarget : k.descriptor.supportsTarget s.target = true)
    (hentity : w.entity?.bind Entity.normalize? = some entity) (r : Resources) :
    (resolveKind g s ws w.kind r).2.triggers.Has entity := by
  have hcommon := (hg w.kind k hk).resolves hresolves
  have hmem : w ∈ ws.filter fun w' => w'.kind == w.kind := List.mem_filter.mpr ⟨hw, beq_self_eq_true _⟩
  unfold resolveKind
  simp only [hk, hresolves, htarget, Bool.and_self, if_true, hcommon]
  refine Kind.foldl_has (fun _ w => Kind.registerEntities_keeps fun raw _ => Kind.keeps_has s entity w.id raw) hmem
    (fun r => ?_) r
  exact Kind.registerEntity_keeps (Kind.keeps_has s entity w.id _) (Kind.registerEntity_has hs hentity _ _)

theorem resolveKinds_has (hg : g.All WidgetKind.IsAccounted) {ws : List Widget} {kind : String}
    {kinds : List String} (hkind : kind ∈ kinds)
    (h : ∀ r, (resolveKind g s ws kind r).2.triggers.Has entity) (r : Resources) :
    (resolveKinds g s ws kinds r).2.triggers.Has entity := by
  obtain ⟨front, back, rfl⟩ := List.append_of_mem hkind
  clear hkind
  induction front generalizing r with
  | nil =>
    exact resolveKinds_keeps (fun kind k hk => (hg kind k hk).resolvesInCommon) (fun w _ => keeps_has g s entity w)
      back (h r)
  | cons other front ih => exact ih _

variable {o : Options} {l : Layout} {t : Target}

theorem has_of_shown (hg : g.All WidgetKind.IsAccounted) (ht : (settingOf o l t).IsFirmware)
    {w : Widget} (hw : w ∈ l.widgets) {k : WidgetKind} (hk : g.kind? w.kind = some k)
    (hresolves : k.descriptor.supports .resolveEntities = true)
    (htarget : k.descriptor.supportsTarget t = true)
    (hentity : w.entity?.bind Entity.normalize? = some entity) :
    (resourcesOf g o l t).triggers.Has entity := by
  have hkind : w.kind ∈ kindsOf l.widgets :=
    List.mem_eraseDups.mpr (List.mem_map_of_mem hw)
  exact registerConditions_keeps (fun w _ => keeps_has g _ entity w)
    (resolveKinds_has hg hkind (resolveKind_has hg ht hw hk hresolves htarget hentity) _)

theorem has_of_guard (ht : t = .procedural) {w : Widget} (hw : w ∈ l.widgets)
    (hentity : w.condition.guardEntity? = some entity) : (resourcesOf g o l t).triggers.Has entity := by
  subst ht
  unfold resourcesOf registerConditions
  simp only [settingOf, if_true]
  refine Kind.foldl_has (fun _ w => Kind.registerEntity_keeps (Kind.keeps_has _ entity w.id _)) hw (fun r => ?_) _
  exact Kind.registerEntity_has (.inl rfl) hentity _ _

/-- The components that a document with entity sections declares. -/
def components (g : Registry) (o : Options) (l : Layout) (t : Target) : Set String :=
  {id | ∃ x ∈ sensorsOf (settingOf o l t) (resourcesOf g o l t), x.id = id}

theorem exists_sensor (ho : s.options.emitSensors = true) (h : r.triggers.Has entity) :
    ∃ actions, .of entity actions ∈ sensorsOf s r := by
  have hmem : entity ∈ Table.keys (r.triggers.numeric ++ r.triggers.text) := by
    rw [Table.keys, List.map_append]
    exact List.mem_append.mpr h
  obtain ⟨e, he, rfl⟩ := List.mem_map.mp hmem
  rw [sensorsOf, if_pos ho, SensorDecl.ofTriggers]
  exact ⟨Table.keys e.2, List.mem_mergeSort.mpr (List.mem_map_of_mem he)⟩

theorem mem_components (ho : o.emitSensors = true) (h : (resourcesOf g o l t).triggers.Has entity) :
    Entity.componentId entity ∈ components g o l t := by
  obtain ⟨actions, hmem⟩ := exists_sensor (s := settingOf o l t) ho h
  exact ⟨_, hmem, rfl⟩

/-- Everything that the emitted widgets of a layout read is declared. -/
theorem readsWithin_components (hg : g.All WidgetKind.IsAccounted) (ho : o.emitSensors = true)
    (ht : (settingOf o l t).IsFirmware) {w : Widget} (hw : w ∈ l.widgets) {k : WidgetKind}
    (hk : g.kind? w.kind = some k) (hserves : k.serves t = true) :
    w.ReadsWithin k (settingOf o l t) (components g o l t) where
  guard := fun hs _ hentity => mem_components ho (has_of_guard hs hw hentity)
  shown := by
    intro hresolves read hread
    obtain ⟨raw, hraw, hread⟩ := Option.bind_eq_some_iff.mp hread
    obtain ⟨e, he, rfl⟩ := Option.map_eq_some_iff.mp hread
    refine mem_components ho (has_of_shown hg ht hw hk hresolves (Bool.and_eq_true_iff.mp hserves).1 ?_)
    exact Option.bind_eq_some_iff.mpr ⟨raw, hraw, he⟩

end Registry

/-! ## Emitted widgets -/

namespace Content

/-- Content whose references are registered with those before it, and whose nodes name their fonts and come
from somewhere. -/
structure IsProvided (S : Set String) (From : RetainedNode → Prop) (K : Set Reference) (c : Content)
    (r : Resources) : Prop where
  references : r.Provides S (c.references ∪ K)
  fonts : ∀ n ∈ c.nodes, ∀ v, n.props.find? "text_font" = some v → ∃ id, v = .string id
  origins : ∀ n ∈ c.nodes, From n

variable {S : Set String} {K : Set Reference} {From : RetainedNode → Prop} {r after : Resources}

theorem references_append (a b : Content) : (a ++ b).references = a.references ∪ b.references := by
  ext ref
  constructor
  · rintro (⟨l, hl, href⟩ | ⟨n, hn, href⟩)
    · exact (List.mem_append.mp hl).imp (fun h => .inl ⟨l, h, href⟩) fun h => .inl ⟨l, h, href⟩
    · exact (List.mem_append.mp hn).imp (fun h => .inr ⟨n, h, href⟩) fun h => .inr ⟨n, h, href⟩
  · rintro ((⟨l, hl, href⟩ | ⟨n, hn, href⟩) | (⟨l, hl, href⟩ | ⟨n, hn, href⟩))
    · exact .inl ⟨l, List.mem_append_left _ hl, href⟩
    · exact .inr ⟨n, List.mem_append_left _ hn, href⟩
    · exact .inl ⟨l, List.mem_append_right _ hl, href⟩
    · exact .inr ⟨n, List.mem_append_right _ hn, href⟩

theorem isProvided_empty (hr : r.Provides S K) : ({} : Content).IsProvided S From K r where
  references := hr.refs fun ref href => hr.holds ref (href.resolve_left (by simp [Content.references]))
  fonts := fun _ hn => absurd hn List.not_mem_nil
  origins := fun _ hn => absurd hn List.not_mem_nil

theorem IsProvided.append {a b : Content} (ha : a.IsProvided S From K r)
    (hb : b.IsProvided S From (a.references ∪ K) after) : (a ++ b).IsProvided S From K after where
  references := by
    rw [references_append, Set.union_comm a.references, Set.union_assoc]
    exact hb.references
  fonts := List.forall_mem_append.mpr ⟨ha.fonts, hb.fonts⟩
  origins := List.forall_mem_append.mpr ⟨ha.origins, hb.origins⟩

end Content

namespace Registry

/-- A node that a widget gives to a retained document. -/
def Gives (g : Registry) (s : Setting) (w : Widget) (n : RetainedNode) : Prop :=
  ∃ k r ns, g.kind? w.kind = some k ∧ k.serves s.target = true ∧ k.retained s r w = .ok ns ∧ n ∈ ns

/-- The widgets that a compile may emit read what will be declared. -/
def ReadsWithin (g : Registry) (s : Setting) (S : Set String) (w : Widget) : Prop :=
  ∀ k, g.kind? w.kind = some k → k.serves s.target = true → w.ReadsWithin k s S

variable {g : Registry} {s : Setting} {r : Resources} {S : Set String} {K : Set Reference}
  {From : RetainedNode → Prop}

theorem nodes_emit {k : WidgetKind} {w : Widget} {c : Content} {after : Resources}
    (hk : g.kind? w.kind = some k) (hserves : k.serves s.target = true)
    (hs : s.target = .procedural ∨ s.target = .retained)
    (h : runWith (k.emit s w) r = (.ok c, after)) : ∀ n ∈ c.nodes, g.Gives s w n := by
  obtain ⟨u, middle, -, hcontent⟩ := ok_of_bind h
  rcases hs with hs | hs
  · obtain ⟨ls, -, rfl⟩ := WidgetKind.content_procedural hs hcontent
    exact fun _ hn => absurd hn List.not_mem_nil
  · obtain ⟨ns, hns, rfl, -⟩ := WidgetKind.content_retained hs hcontent
    exact fun n hn => ⟨k, middle, ns, hk, hserves, hns, hn⟩

theorem compileWidget_provides (hg : g.All WidgetKind.IsAccounted) (hs : s.IsFirmware) {w : Widget}
    (hw : g.ReadsWithin s S w) (hfrom : ∀ n, g.Gives s w n → From n) (page : Nat)
    (hr : r.Provides S K) :
    (compileWidget g s page w r).1.content.IsProvided S From K (compileWidget g s page w r).2 := by
  rcases hk : g.kind? w.kind with _ | k
  · rw [compileWidget_unknown hk]
    exact Content.isProvided_empty hr
  cases hserves : k.serves s.target with
  | false =>
    rw [compileWidget_unserved hk hserves]
    exact Content.isProvided_empty hr
  | true =>
    rcases he : runWith (k.emit s w) r with ⟨e | c, after⟩
    · rw [compileWidget_failed hk hserves he]
      exact Content.isProvided_empty hr
    · obtain ⟨collected, hdeclares⟩ := (hg w.kind k hk).declares
      obtain ⟨hprovides, hfonts⟩ := hdeclares.emit hs (hw k hk hserves) hr he
      rw [compileWidget_emitted hk hserves he]
      exact ⟨hprovides, hfonts, fun n hn => hfrom n (nodes_emit hk hserves hs he n hn)⟩

theorem compileWidgets_provides (hg : g.All WidgetKind.IsAccounted) (hs : s.IsFirmware) (page : Nat)
    {ws : List Widget} (hws : ∀ w ∈ ws, g.ReadsWithin s S w)
    (hfrom : ∀ w ∈ ws, ∀ n, g.Gives s w n → From n) (hr : r.Provides S K) :
    (compileWidgets g s page ws r).1.content.IsProvided S From K (compileWidgets g s page ws r).2 := by
  induction ws generalizing r K with
  | nil => exact Content.isProvided_empty hr
  | cons w ws ih =>
    rw [compileWidgets_cons]
    have hfirst := compileWidget_provides hg hs (hws w List.mem_cons_self) (hfrom w List.mem_cons_self)
      page hr
    exact hfirst.append (ih (fun w' hw' => hws w' (List.mem_cons_of_mem w hw'))
      (fun w' hw' => hfrom w' (List.mem_cons_of_mem w hw')) hfirst.references)

/-- What pages put on a document, all together. -/
def contentOf (pages : List PageProgress) : Content :=
  pages.foldr (fun p c => p.progress.content ++ c) {}

theorem compilePages_provides (hg : g.All WidgetKind.IsAccounted) (hs : s.IsFirmware) (index : Nat)
    {ps : List Page} (hps : ∀ p ∈ ps, ∀ w ∈ p.widgets, g.ReadsWithin s S w)
    (hfrom : ∀ p ∈ ps, ∀ w ∈ p.widgets, ∀ n, g.Gives s w n → From n) (hr : r.Provides S K) :
    (contentOf (compilePages g s index ps r).1).IsProvided S From K (compilePages g s index ps r).2 := by
  induction ps generalizing index r K with
  | nil => exact Content.isProvided_empty hr
  | cons p ps ih =>
    rw [compilePages_cons]
    have hfirst := compileWidgets_provides hg hs index (hps p List.mem_cons_self)
      (hfrom p List.mem_cons_self) hr
    exact hfirst.append (ih (index + 1) (fun p' hp' => hps p' (List.mem_cons_of_mem p hp'))
      (fun p' hp' => hfrom p' (List.mem_cons_of_mem p hp')) hfirst.references)

theorem subset_contentOf {pages : List PageProgress} {p : PageProgress} (hp : p ∈ pages) :
    p.progress.content.statements ⊆ (contentOf pages).statements ∧
      p.progress.content.nodes ⊆ (contentOf pages).nodes := by
  induction pages with
  | nil => exact absurd hp List.not_mem_nil
  | cons q pages ih =>
    rcases List.mem_cons.mp hp with rfl | hp
    · exact ⟨List.subset_append_left _ _, List.subset_append_left _ _⟩
    · obtain ⟨hstatements, hnodes⟩ := ih hp
      exact ⟨fun l hl => List.mem_append_right _ (hstatements hl),
        fun n hn => List.mem_append_right _ (hnodes hn)⟩

end Registry

/-! ## Documents -/

namespace ProceduralDocument

/-- What the sections of a document declare. -/
def Declares (d : ProceduralDocument) : Reference → Prop
  | .font id => "    id: " ++ id ∈ FontRequest.sectionLines d.fonts
  | .graph id => "  - id: " ++ id ∈ d.graphLines
  | .color name => ∃ rgb, colorLine (name, rgb) ∈ d.displayLines
  | .sensor id => "    id: " ++ id ∈ SensorDecl.sectionLines d.sensors

/-- Whatever the statements of the pages and the graphs refer to is declared. -/
structure IsDeclared (d : ProceduralDocument) : Prop where
  statements : ∀ p ∈ d.pages, ∀ l ∈ p.body, ∀ ref ∈ Statement.references l, d.Declares ref
  graphs : ∀ g ∈ d.graphs, d.Declares (.sensor g.sensor)

end ProceduralDocument

namespace RetainedDocument

/-- Every node comes from a widget and names a font of the document, and the lambda of a widget with an
entity reads entities of the document. (A widget without an entity has no lambda: it shows its own text.) -/
structure IsDeclared (g : Registry) (s : Setting) (l : Layout) (d : RetainedDocument) : Prop where
  origins : ∀ p ∈ d.pages, ∀ n ∈ p.widgets, ∃ w ∈ l.widgets, g.Gives s w n
  fonts : ∀ p ∈ d.pages, ∀ n ∈ p.widgets, ∀ v, n.props.find? "text_font" = some v →
    ∃ f ∈ d.fonts, v = .string f.id
  lambdas : ∀ w ∈ l.widgets, (Kind.entityRead? w).isSome = true → ∀ n, g.Gives s w n →
    ∀ id, n.Reads id → ∃ x ∈ d.sensors, x.id = id

end RetainedDocument

/-! ## Sections -/

theorem FontRequest.mem_sectionLines {fonts : List FontRequest} {f : FontRequest} (hf : f ∈ fonts) :
    "    id: " ++ f.id ∈ sectionLines fonts := by
  have hline : "    id: " ++ f.id ∈ f.declarationLines := by simp [declarationLines]
  have hne : fonts.isEmpty = false := List.isEmpty_eq_false_iff.mpr (List.ne_nil_of_mem hf)
  rw [sectionLines, hne, if_neg Bool.false_ne_true]
  exact List.mem_append_left _ (List.mem_cons_of_mem _ (List.mem_flatMap.mpr ⟨f, hf, hline⟩))

theorem ProceduralDocument.mem_graphLines {d : ProceduralDocument} {g : Graph} (hg : g ∈ d.graphs) :
    "  - id: " ++ g.id ∈ d.graphLines := by
  have hline : "  - id: " ++ g.id ∈ graphDeclaration g := by simp [graphDeclaration]
  have hne : d.graphs.isEmpty = false := List.isEmpty_eq_false_iff.mpr (List.ne_nil_of_mem hg)
  rw [graphLines, hne, if_neg Bool.false_ne_true]
  exact List.mem_append_left _ (List.mem_cons_of_mem _ (List.mem_flatMap.mpr ⟨g, hg, hline⟩))

theorem SensorDecl.mem_linesFrom {ds : List SensorDecl} {x : SensorDecl} (hx : x ∈ ds)
    (previous : Option SensorKind) : "    id: " ++ x.id ∈ linesFrom previous ds := by
  induction ds generalizing previous with
  | nil => exact absurd hx List.not_mem_nil
  | cons d ds ih =>
    rw [linesFrom]
    rcases List.mem_cons.mp hx with rfl | hx
    · have hline : "    id: " ++ x.id ∈ x.bodyLines := by simp [bodyLines]
      exact List.mem_append_left _ (List.mem_append_right _ hline)
    · exact List.mem_append_right _ (ih hx _)

namespace Registry

variable {g : Registry} {o : Options} {l : Layout} {t : Target}

/-- All that the pages of a firmware document refer to is registered in the end. -/
theorem provides_resourcesOf (hg : g.All WidgetKind.IsAccounted) (ho : o.emitSensors = true)
    (ht : (settingOf o l t).IsFirmware) :
    (contentOf (compilePages g (settingOf o l t) 0 l.pages {}).1).IsProvided (components g o l t)
      (fun n => ∃ w ∈ l.widgets, g.Gives (settingOf o l t) w n) ∅ (resourcesOf g o l t) := by
  have hmem : ∀ p ∈ l.pages, ∀ w ∈ p.widgets, w ∈ l.widgets := fun p hp w hw =>
    List.mem_flatMap.mpr ⟨p, hp, hw⟩
  have hreads : ∀ p ∈ l.pages, ∀ w ∈ p.widgets,
      g.ReadsWithin (settingOf o l t) (components g o l t) w := fun p hp w hw _ hk hserves =>
    readsWithin_components hg ho ht (hmem p hp w hw) hk hserves
  have hcompiled : (contentOf (compilePages g (settingOf o l t) 0 l.pages {}).1).IsProvided
      (components g o l t) (fun n => ∃ w ∈ l.widgets, g.Gives (settingOf o l t) w n) ∅
      (compilePages g (settingOf o l t) 0 l.pages {}).2 :=
    compilePages_provides hg ht 0 hreads (fun p hp w hw n hn => ⟨w, hmem p hp w hw, hn⟩)
      (Resources.provides_empty _)
  obtain ⟨triggers, htriggers⟩ :=
    resourcesOf_triggers (fun kind k hk => (hg kind k hk).resolvesInCommon.triggersOnly) o l t
  rw [htriggers]
  exact ⟨hcompiled.references.withTriggers triggers, hcompiled.fonts, hcompiled.origins⟩

theorem mem_fonts_of_holds {S : Set String} {K : Set Reference} {r : Resources} (hr : r.Provides S K)
    {id : String} (h : r.Holds S (.font id)) : ∃ f ∈ Table.values r.fonts, f.id = id := by
  obtain ⟨e, he, rfl⟩ := List.mem_map.mp h
  exact ⟨e.2, List.mem_map_of_mem he, hr.fonts e he⟩

/-- Everything that is registered is declared. -/
theorem declares_of_holds {S : Set String} {K : Set Reference} {r : Resources} (hr : r.Provides S K)
    {d : ProceduralDocument} (hfonts : d.fonts = Table.values r.fonts)
    (hgraphs : d.graphs = Table.values r.graphs) (hcolors : d.colors = r.colors)
    (hsensors : ∀ id ∈ S, ∃ x ∈ d.sensors, x.id = id) {ref : Reference} (h : r.Holds S ref) :
    d.Declares ref := by
  cases ref with
  | font id =>
    obtain ⟨f, hf, rfl⟩ := mem_fonts_of_holds hr h
    exact FontRequest.mem_sectionLines (hfonts ▸ hf)
  | graph id =>
    obtain ⟨e, he, rfl⟩ := List.mem_map.mp h
    have hmem : e.2 ∈ d.graphs := hgraphs ▸ List.mem_map_of_mem he
    have hline := ProceduralDocument.mem_graphLines hmem
    rwa [(hr.graphs e he).1] at hline
  | color name =>
    obtain ⟨e, he, rfl⟩ := List.mem_map.mp h
    have hline : ProceduralDocument.colorLine e ∈ d.colors.map ProceduralDocument.colorLine :=
      List.mem_map_of_mem (hcolors ▸ he)
    exact ⟨e.2, List.mem_append_left _ (List.mem_append_right _ hline)⟩
  | sensor id =>
    obtain ⟨x, hx, rfl⟩ := hsensors id h
    exact SensorDecl.mem_linesFrom hx none

theorem isDeclared_procedural (hg : g.All WidgetKind.IsAccounted) (ho : o.emitSensors = true)
    (l : Layout) : ∃ d, (compile g o l .procedural).output = .procedural d ∧ d.IsDeclared := by
  have ht : (settingOf o l .procedural).IsFirmware := .inl rfl
  have hprovides := (provides_resourcesOf hg ho ht).references
  have hsensors : ∀ id ∈ components g o l .procedural,
      ∃ x ∈ sensorsOf (settingOf o l .procedural) (resourcesOf g o l .procedural), x.id = id :=
    fun _ hid => hid
  refine ⟨_, rfl, fun p hp line hline ref href => ?_, fun graph hgraph => ?_⟩
  · obtain ⟨q, hq, rfl⟩ := List.mem_map.mp hp
    have hmem := (subset_contentOf hq).1 hline
    exact declares_of_holds hprovides rfl rfl rfl hsensors
      (hprovides.holds ref (.inl (.inl ⟨line, hmem, href⟩)))
  · obtain ⟨e, he, rfl⟩ := List.mem_map.mp hgraph
    exact declares_of_holds hprovides rfl rfl rfl hsensors (hprovides.graphs e he).2

theorem isDeclared_retained (hg : g.All WidgetKind.IsAccounted) (ho : o.emitSensors = true)
    (l : Layout) : ∃ d, (compile g o l .retained).output = .retained d ∧
      d.IsDeclared g (settingOf o l .retained) l := by
  have ht : (settingOf o l .retained).IsFirmware := .inr rfl
  have hprovided := provides_resourcesOf hg ho ht
  refine ⟨_, rfl, fun p hp n hn => ?_, fun p hp n hn v hv => ?_, fun w hw hentity n hn id hid => ?_⟩
  · obtain ⟨q, hq, rfl⟩ := List.mem_map.mp hp
    exact hprovided.origins n ((subset_contentOf hq).2 hn)
  · obtain ⟨q, hq, rfl⟩ := List.mem_map.mp hp
    have hmem := (subset_contentOf hq).2 hn
    obtain ⟨id, rfl⟩ := hprovided.fonts n hmem v hv
    obtain ⟨f, hf, rfl⟩ := mem_fonts_of_holds hprovided.references
      (hprovided.references.holds (.font id) (.inl (.inr ⟨n, hmem, id, hv, rfl⟩)))
    exact ⟨f, hf, rfl⟩
  · obtain ⟨k, r, ns, hk, hserves, hns, hmem⟩ := hn
    obtain ⟨collected, hdeclares⟩ := (hg w.kind k hk).declares
    exact ((hdeclares.retained (readsWithin_components hg ho ht hw hk hserves) hns) n hmem).lambda
      hentity id hid

/-- A chart, a clock and a label that is shown while there is motion. -/
def hallLayout : Layout :=
  { pages := [{ id := "page_0", name := "Hall", widgets :=
      [{ Widget.make "history" "chart" with entityId := some "sensor.hall" },
        .make "now" "datetime",
        { Widget.make "label" "text" with
          entityId := some "sensor.hall", condition := { entityId := some "binary_sensor.motion", state := some "on" } }] }] }

end Registry

end Dashboard
