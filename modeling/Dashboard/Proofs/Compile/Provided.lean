import Dashboard.Compile.Layout
import Dashboard.Proofs.Compile.Registered
import Dashboard.Proofs.Document.Lambdas
import Mathlib.Data.Set.Insert
/-!
# What widgets refer to is registered

Whatever the drawing code or the nodes of a widget refer to is registered when the widget is emitted: its
fonts, its constants and its graph by the widget itself, and the entities that it reads later, all at once.
Registering never takes anything away, so the references of earlier widgets stay registered.
-/

namespace Dashboard

open Text Emission Statement

/-! ## Names -/

theorem Statement.IsName.append {s t : String} (hs : IsName s) (ht : IsWord t.toList) :
    IsName (s ++ t) := by
  refine ⟨?_, ?_⟩
  · rw [String.toList_append]
    exact List.append_ne_nil_of_left_ne_nil hs.1 _
  · rw [String.toList_append]
    exact List.forall_mem_append.mpr ⟨hs.2, ht⟩

theorem isNameChar_of_isAlphanum {c : Char} (h : c.isAlphanum = true) : isNameChar c = true := by
  simp [isNameChar, h]

theorem FontRequest.isName_id (f : FontRequest) : IsName f.id := by
  have hslug : IsWord (String.ofList (f.family.toList.map slugChar)).toList := by
    intro c hc
    rw [String.toList_ofList] at hc
    obtain ⟨d, -, rfl⟩ := List.mem_map.mp hc
    unfold slugChar
    split
    · exact isNameChar_of_isAlphanum (isAlphanum_toLower ‹_›)
    · decide
  have hitalic : IsWord (if f.italic then "_italic" else "").toList := by
    split <;> decide
  have hfont : IsName "font_" := ⟨by decide, by decide⟩
  exact (((((hfont.append hslug).append (by decide)).append fun _ => Kind.isNameChar_natText).append
    (by decide)).append fun _ => Kind.isNameChar_natText).append hitalic

theorem Kind.Chart.isName_graphId (w : Widget) : IsName (graphId w) := by
  have hgraph : IsName "graph_" := ⟨by decide, by decide⟩
  refine hgraph.append fun c hc => ?_
  simpa [isNameChar] using Entity.mem_componentId hc

theorem isColorName_constantName (color : String) : IsColorName (Colors.constantName color) := by
  refine ⟨?_, ?_⟩
  · have hcolor : IsName "color_" := ⟨by decide, by decide⟩
    refine hcolor.append fun c hc => ?_
    rw [String.toList_ofList] at hc
    obtain ⟨d, hd, rfl⟩ := List.mem_map.mp hc
    exact isNameChar_of_isAlphanum (isAlphanum_toLower (List.mem_filter.mp hd).2)
  · rw [Colors.constantName, String.toList_append]
    exact List.isPrefixOf_iff_prefix.mpr (List.prefix_append _ _)

/-! ## Registered references -/

namespace Resources

/-- A reference to something that is registered, given the components that entities will have. -/
def Holds (S : Set String) (r : Resources) : Reference → Prop
  | .font id => id ∈ Table.keys r.fonts
  | .graph id => id ∈ Table.keys r.graphs
  | .color name => name ∈ Table.keys r.colors
  | .sensor id => id ∈ S

/-- Fonts and graphs are entered under their ids, graphs show entities that will be declared, and certain
references are held. -/
structure Provides (S : Set String) (K : Set Reference) (r : Resources) : Prop where
  holds : ∀ ref ∈ K, r.Holds S ref
  fonts : ∀ e ∈ r.fonts, e.2.id = e.1
  graphs : ∀ e ∈ r.graphs, e.2.id = e.1 ∧ e.2.sensor ∈ S

variable {S : Set String} {K : Set Reference} {r : Resources}

theorem Holds.mono {r' : Resources} {ref : Reference} (h : r.Holds S ref)
    (hfonts : Table.keys r.fonts ⊆ Table.keys r'.fonts)
    (hcolors : Table.keys r.colors ⊆ Table.keys r'.colors)
    (hgraphs : Table.keys r.graphs ⊆ Table.keys r'.graphs) : r'.Holds S ref := by
  cases ref with
  | font id => exact hfonts h
  | graph id => exact hgraphs h
  | color name => exact hcolors h
  | sensor id => exact h

theorem provides_empty (S : Set String) : Provides S ∅ {} where
  holds := fun _ h => absurd h (Set.notMem_empty _)
  fonts := fun _ h => absurd h List.not_mem_nil
  graphs := fun _ h => absurd h List.not_mem_nil

namespace Provides

theorem refs (h : r.Provides S K) {L : Set Reference} (hL : ∀ ref ∈ L, r.Holds S ref) :
    r.Provides S L := ⟨hL, h.fonts, h.graphs⟩

/-- References to what is registered can be added to those that are held. -/
theorem lines (h : r.Provides S K) {L : Set Reference} (hL : L ⊆ K) {ls : List String}
    (hls : ∀ l ∈ ls, ∀ ref ∈ references l, r.Holds S ref) :
    r.Provides S ({ref | ∃ l ∈ ls, ref ∈ references l} ∪ L) := by
  refine h.refs fun ref href => ?_
  rcases href with ⟨l, hl, href⟩ | href
  · exact hls l hl ref href
  · exact h.holds ref (hL href)

theorem withTriggers (h : r.Provides S K) (triggers : Triggers) :
    Provides S K { r with triggers } where
  holds := by
    intro ref href
    refine (h.holds ref href).mono ?_ ?_ ?_
    exacts [List.Subset.refl _, List.Subset.refl _, List.Subset.refl _]
  fonts := h.fonts
  graphs := h.graphs

theorem addFont (h : r.Provides S K) (f : FontRequest) :
    (addFont f r).2.Provides S (insert (.font f.id) K) where
  holds := by
    have hkeys : Table.keys r.fonts ⊆ Table.keys (Table.putNew f.id f r.fonts) := fun _ hk =>
      Table.mem_keys_putNew.mpr (.inr hk)
    intro ref href
    rcases Set.mem_insert_iff.mp href with rfl | href
    · exact Table.mem_keys_putNew.mpr (.inl rfl)
    · refine (h.holds ref href).mono ?_ ?_ ?_
      exacts [hkeys, List.Subset.refl _, List.Subset.refl _]
  fonts := by
    intro e he
    rcases Table.mem_putNew he with rfl | he
    · rfl
    · exact h.fonts e he
  graphs := h.graphs

theorem addGraph (h : r.Provides S K) {g : Graph} (hg : g.sensor ∈ S) :
    (addGraph g r).2.Provides S (insert (.graph g.id) K) where
  holds := by
    have hkeys : Table.keys r.graphs ⊆ Table.keys (Table.put g.id g r.graphs) := fun _ hk =>
      Table.mem_keys_put.mpr (.inr hk)
    intro ref href
    rcases Set.mem_insert_iff.mp href with rfl | href
    · exact Table.mem_keys_put.mpr (.inl rfl)
    · refine (h.holds ref href).mono ?_ ?_ ?_
      exacts [List.Subset.refl _, List.Subset.refl _, hkeys]
  fonts := h.fonts
  graphs := by
    intro e he
    rcases Table.mem_put he with rfl | he
    · exact ⟨rfl, hg⟩
    · exact h.graphs e he

theorem putColor (h : r.Provides S K) (name : String) (rgb : Rgb) :
    Provides S (insert (.color name) K) { r with colors := Table.putNew name rgb r.colors } where
  holds := by
    have hkeys : Table.keys r.colors ⊆ Table.keys (Table.putNew name rgb r.colors) := fun _ hk =>
      Table.mem_keys_putNew.mpr (.inr hk)
    intro ref href
    rcases Set.mem_insert_iff.mp href with rfl | href
    · exact Table.mem_keys_putNew.mpr (.inl rfl)
    · refine (h.holds ref href).mono ?_ ?_ ?_
      exacts [List.Subset.refl _, hkeys, List.Subset.refl _]
  fonts := h.fonts
  graphs := h.graphs

theorem addColor (h : r.Provides S K) (color : String) :
    IsColorName (addColor color r).1 ∧
      (addColor color r).2.Provides S (insert (.color (addColor color r).1) K) := by
  unfold Resources.addColor Colors.constant
  cases Color.rgb? color with
  | some rgb => exact ⟨isColorName_constantName _, h.putColor _ rgb⟩
  | none => exact ⟨isColorName_constantName _, h.putColor _ ⟨0, 0, 0⟩⟩

/-- The constant of a color that may be missing. -/
def colorOf (name : Option String) : Set Reference := {ref | ∃ n ∈ name, ref = .color n}

theorem colorConstant? (h : r.Provides S K) (s : Setting) (value : String) (role : ColorRole) :
    (∀ name ∈ (colorConstant? s value role r).1, IsColorName name) ∧
      (colorConstant? s value role r).2.Provides S (colorOf (colorConstant? s value role r).1 ∪ K) := by
  unfold Resources.colorConstant?
  cases s.color? value role with
  | none =>
    refine ⟨fun _ hn => (nomatch hn), h.refs fun ref href => ?_⟩
    rcases href with ⟨n, hn, -⟩ | href
    · exact nomatch hn
    · exact h.holds ref href
  | some c =>
    obtain ⟨hname, hafter⟩ := h.addColor c
    refine ⟨fun name hn => Option.mem_some.mp hn ▸ hname, hafter.refs fun ref href => ?_⟩
    rcases href with ⟨n, hn, rfl⟩ | href
    · exact Option.mem_some.mp hn ▸ hafter.holds _ (Set.mem_insert _ K)
    · exact hafter.holds ref (Set.mem_insert_of_mem _ href)

theorem colorConstant (h : r.Provides S K) (s : Setting) (value : String) (role : ColorRole) :
    IsColorName (colorConstant s value role r).1 ∧
      (colorConstant s value role r).2.Provides S (insert (.color (colorConstant s value role r).1) K) := by
  obtain ⟨hnames, hafter⟩ := h.colorConstant? s value role
  unfold Resources.colorConstant
  rcases hc : Resources.colorConstant? s value role r with ⟨name, after⟩
  rw [hc] at hnames hafter
  cases name with
  | some name =>
    refine ⟨hnames name rfl, hafter.refs fun ref href => hafter.holds ref ?_⟩
    exact href.imp (fun he => ⟨name, rfl, he⟩) id
  | none =>
    obtain ⟨hname, hdrawn⟩ := hafter.addColor (Color.themeDefault s.dark)
    exact ⟨hname, hdrawn.refs fun ref href => hdrawn.holds ref (href.imp id .inr)⟩

section Registering

variable {s : Setting} {value : String} {role : ColorRole} {after : Resources}

/-- A registered font is there under its id. -/
theorem registerFont (h : r.Provides S K) {f : FontRequest} {id : String}
    (hrun : runWith (register (Resources.addFont f)) r = (.ok id, after)) :
    id = f.id ∧ IsName id ∧ after.Provides S (insert (.font id) K) := by
  obtain ⟨hid, hafter⟩ := ok_of_register hrun
  have hid : id = f.id := hid
  rw [hid, hafter]
  exact ⟨rfl, f.isName_id, h.addFont f⟩

/-- A registered color is there as a constant. -/
theorem registerColor (h : r.Provides S K) {color : String}
    (hrun : runWith (register (Resources.colorConstant s value role)) r = (.ok color, after)) :
    IsColorName color ∧ after.Provides S (insert (.color color) K) := by
  obtain ⟨hname, hafter⟩ := ok_of_register hrun
  rw [hname, hafter]
  exact h.colorConstant s value role

theorem registerColor? (h : r.Provides S K) {color : Option String}
    (hrun : runWith (register (Resources.colorConstant? s value role)) r = (.ok color, after)) :
    (∀ name ∈ color, IsColorName name) ∧ after.Provides S (colorOf color ∪ K) := by
  obtain ⟨hname, hafter⟩ := ok_of_register hrun
  rw [hname, hafter]
  exact h.colorConstant? s value role

end Registering

end Provides

end Resources

/-! ## Kinds -/

/-- What the statements of a widget refer to, and the fonts that its nodes name. -/
def Content.references (c : Content) : Set Reference :=
  {ref | (∃ l ∈ c.statements, ref ∈ Statement.references l) ∨
    ∃ n ∈ c.nodes, ∃ id, n.props.find? "text_font" = some (.string id) ∧ ref = .font id}

/-- The entities that the drawing of a widget reads have components in a set: that of its guard, and the
one that it shows if its kind resolves entities. -/
structure Widget.ReadsWithin (k : WidgetKind) (s : Setting) (S : Set String) (w : Widget) : Prop where
  guard : s.target = .procedural → ∀ entity, w.condition.guardEntity? = some entity →
    Entity.componentId entity ∈ S
  shown : k.descriptor.supports .resolveEntities = true → ∀ read, Kind.entityRead? w = some read →
    read.id ∈ S

/-- A node of a widget that names fonts of a set, and that reads components of a set if the widget has an
entity. Otherwise its text is the text that the widget was given. -/
structure RetainedNode.IsOf (w : Widget) (C : Set Reference) (S : Set String) (n : RetainedNode) : Prop where
  font : ∀ v, n.props.find? "text_font" = some v → ∃ id, v = .string id ∧ .font id ∈ C
  lambda : (Kind.entityRead? w).isSome = true → ∀ id, n.Reads id → id ∈ S

theorem RetainedNode.isOf_of_none {w : Widget} {C : Set Reference} {S : Set String} {n : RetainedNode}
    (h : ∀ key, key = "text_font" ∨ key = "text" → n.props.find? key = none) : n.IsOf w C S where
  font := fun _ hv => nomatch (h _ (.inl rfl)).symm.trans hv
  lambda := fun _ _ ⟨_, htext, _⟩ => nomatch (h _ (.inr rfl)).symm.trans htext

namespace WidgetKind

variable {k : WidgetKind} {s : Setting} {w : Widget} {r after : Resources} {c : Content}

theorem content_procedural (hs : s.target = .procedural)
    (h : runWith (k.content s w) r = (.ok c, after)) :
    ∃ ls, runWith (k.procedural s w) r = (.ok ls, after) ∧ c = { statements := ls } := by
  unfold content at h
  rw [hs] at h
  obtain ⟨ls, middle, hls, hc⟩ := ok_of_bind h
  cases hc
  exact ⟨ls, hls, rfl⟩

theorem content_retained (hs : s.target = .retained)
    (h : runWith (k.content s w) r = (.ok c, after)) :
    ∃ ns, k.retained s r w = .ok ns ∧ c = { nodes := ns } ∧ after = r := by
  unfold content at h
  rw [hs] at h
  obtain ⟨r', middle, hget, h⟩ := ok_of_bind h
  cases hget
  obtain ⟨ns, middle, hns, hc⟩ := ok_of_bind h
  cases hc
  have hok := congrArg Prod.fst hns
  have hsame := congrArg Prod.snd hns
  exact ⟨ns, hok, rfl, hsame.symm⟩

/-- A kind whose widgets collect certain references, and otherwise refer to what they register while they
are drawn and to the entities that they read. -/
structure Declares (k : WidgetKind) (collected : Setting → Widget → Set Reference) : Prop where
  collect : ∀ {s w S K r u after}, w.ReadsWithin k s S → r.Provides S K →
    runWith (k.collectFor s w) r = (.ok u, after) → after.Provides S (collected s w ∪ K)
  procedural : ∀ {s w S K r ls after}, s.target = .procedural → w.ReadsWithin k s S →
    r.Provides S (collected s w ∪ K) → runWith (k.procedural s w) r = (.ok ls, after) →
      after.Provides S ({ref | ∃ l ∈ ls, ref ∈ Statement.references l} ∪ K)
  retained : ∀ {s w S r ns}, w.ReadsWithin k s S → k.retained s r w = .ok ns →
    ∀ n ∈ ns, n.IsOf w (collected s w) S

variable {collected : Setting → Widget → Set Reference} {S : Set String} {K : Set Reference}

theorem Declares.emit (hk : k.Declares collected) (hs : s.target = .procedural ∨ s.target = .retained)
    (hw : w.ReadsWithin k s S) (hr : r.Provides S K) (h : runWith (k.emit s w) r = (.ok c, after)) :
    after.Provides S (c.references ∪ K) ∧
      ∀ n ∈ c.nodes, ∀ v, n.props.find? "text_font" = some v → ∃ id, v = .string id := by
  obtain ⟨u, middle, hcollect, hcontent⟩ := ok_of_bind h
  have hmiddle := hk.collect hw hr hcollect
  rcases hs with hs | hs
  · obtain ⟨ls, hls, rfl⟩ := content_procedural hs hcontent
    have hafter := hk.procedural hs hw hmiddle hls
    refine ⟨hafter.refs fun ref href => hafter.holds ref (href.imp_left fun hc => ?_), by simp⟩
    exact hc.resolve_right (by simp)
  · obtain ⟨ns, hns, rfl, rfl⟩ := content_retained hs hcontent
    have hnodes := hk.retained hw hns
    refine ⟨hmiddle.refs fun ref href => ?_, fun n hn v hv => ?_⟩
    · rcases href with (⟨l, hl, -⟩ | ⟨n, hn, id, hfont, rfl⟩) | href
      · exact absurd hl List.not_mem_nil
      · obtain ⟨id', he, hid⟩ := (hnodes n hn).font _ hfont
        exact hmiddle.holds _ (.inl (Json.string.inj he ▸ hid))
      · exact hmiddle.holds ref (.inr href)
    · obtain ⟨id, he, -⟩ := (hnodes n hn).font v hv
      exact ⟨id, he⟩

theorem runWith_collectFor (h : k.descriptor.supports .collectResources = false) :
    runWith (k.collectFor s w) r = (.ok (), r) := by
  rw [collectFor, if_neg (by simp [h]), runWith_pure]

/-- A kind that collects nothing and whose nodes show no text. -/
theorem Declares.of_plain (hcollect : k.descriptor.supports .collectResources = false)
    (hprocedural : ∀ {s w S K r ls after}, s.target = .procedural → w.ReadsWithin k s S →
      Resources.Provides S K r → runWith (k.procedural s w) r = (.ok ls, after) →
        after.Provides S ({ref | ∃ l ∈ ls, ref ∈ Statement.references l} ∪ K))
    (hretained : ∀ {s w r ns}, k.retained s r w = .ok ns → ∀ n ∈ ns, ∀ {key : String},
      key = "text_font" ∨ key = "text" → n.props.find? key = none) :
    k.Declares fun _ _ => ∅ where
  collect := by
    intro s w S K r u after _ hr h
    rw [runWith_collectFor hcollect] at h
    cases h
    rwa [Set.empty_union]
  procedural := by
    intro s w S K r ls after hs hw hr h
    rw [Set.empty_union] at hr
    exact hprocedural hs hw hr h
  retained := fun _ h n hn => RetainedNode.isOf_of_none fun _ hkey => hretained h n hn hkey

end WidgetKind

end Dashboard
