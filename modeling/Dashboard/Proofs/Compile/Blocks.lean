import Dashboard.Proofs.Compile.Invariants
import Dashboard.Proofs.Compile.Skipping
import Dashboard.Proofs.Kind.Drawn
import Mathlib.Data.List.Forall2
/-!
# The pages of a compiled document

A page of the drawing code of a layout consists of one block for each widget that the compile emits, in
paint order, and the block of a widget carries its marker. The pages are numbered in order, and what
they share is what their widgets registered.
-/

namespace Dashboard

open Text Emission

/-- A readable block with the marker that is written for a widget. -/
structure CodeBlock.IsBlockOf (g : Registry) (w : Widget) (b : CodeBlock) : Prop where
  readable : b.Readable
  written : ∃ k bag, g.kind? w.kind = some k ∧ k.typed w = .ok bag ∧ b.marker.kind = w.kind ∧
    Marker.ofLine? (Region.scanned (Marker.encode w bag k.aliases)) = some b.marker

/-- The texts that a widget brings into the sections of a document satisfy a predicate. -/
def Registry.HasRawTexts (g : Registry) (T : String → Prop) (w : Widget) : Prop :=
  ∀ k, g.kind? w.kind = some k → ∀ bag, k.typed w = .ok bag → HasRaw T bag

/-- A kind that resolves the entities of its widgets in the common way, or none. -/
def WidgetKind.ResolvesWidgets (k : WidgetKind) : Prop :=
  (k.resolve = fun _ _ => pure ()) ∨ k.resolve = Kind.resolveWidgets

theorem Kind.resolvesWidgets_of_builtin {k : WidgetKind} (hk : k ∈ Kind.builtin) :
    k.ResolvesWidgets := by
  simp only [Kind.builtin, List.mem_cons, List.not_mem_nil, or_false] at hk
  rcases hk with rfl | rfl | rfl | rfl | rfl | rfl | rfl | rfl | rfl
  case inr.inl => exact .inr rfl
  case inr.inr.inr.inr.inr.inl => exact .inr rfl
  case inr.inr.inr.inr.inr.inr.inl => exact .inr rfl
  all_goals exact .inl rfl

/-- A registry in which kinds are found under key words and those of the drawing code write blocks. -/
structure Registry.IsWritten (g : Registry) : Prop where
  id : ∀ kind k, g.kind? kind = some k → k.id = kind
  key : ∀ kind k, g.kind? kind = some k → Marker.IsKey kind.toList
  blocks : ∀ kind k, g.kind? kind = some k → k.serves .procedural = true → k.WritesBlocks
  resolves : ∀ kind k, g.kind? kind = some k → k.ResolvesWidgets

namespace Registry

theorem kind?_ofKinds {ks : List WidgetKind} {kind : String} {k : WidgetKind}
    (h : (ofKinds ks).kind? kind = some k) : k ∈ ks ∧ k.id = kind := by
  have hregister : ∀ (g : Registry) (k' : WidgetKind), (∀ kind k, g.kind? kind = some k → k.id = kind) →
      ∀ kind k, (g.register k').kind? kind = some k → k.id = kind := by
    intro g k' hg kind k hk
    by_cases he : kind = k'.id
    · subst he
      rw [kind?, register, Table.find?_put_self] at hk
      rw [Option.some.inj hk]
    · rw [kind?, register, Table.find?_put_of_ne k' g he] at hk
      exact hg kind k hk
  have hids : ∀ (ks : List WidgetKind) (g : Registry), (∀ kind k, g.kind? kind = some k → k.id = kind) →
      ∀ kind k, kind? (ks.foldl (fun g k => register k g) g) kind = some k → k.id = kind := by
    intro ks
    induction ks with
    | nil => exact fun g hg => hg
    | cons k' ks ih => exact fun g hg => ih _ (hregister g k' hg)
  have hmem : (ofKinds ks).All (· ∈ ks) := all_ofKinds fun k hk => hk
  exact ⟨hmem kind k h, hids ks [] (fun _ _ hk => absurd hk (Option.some_ne_none _).symm) kind k h⟩

theorem isWritten_builtin : builtin.IsWritten where
  id := fun _ _ hk => (kind?_ofKinds hk).2
  key := fun _ _ hk => (kind?_ofKinds hk).2 ▸ Kind.isKey_of_builtin (kind?_ofKinds hk).1
  blocks := fun _ _ hk hserves => Kind.writesBlocks_of_builtin (kind?_ofKinds hk).1 hserves
  resolves := fun _ _ hk => Kind.resolvesWidgets_of_builtin (kind?_ofKinds hk).1

variable {g : Registry} {s : Setting} {T : String → Prop}

theorem yields_emit {k : WidgetKind} (hk : k.WritesBlocks) (hs : s.target = .procedural) {w : Widget}
    (ht : OneLine s.options.timeId) (hraw : ∀ bag, k.typed w = .ok bag → HasRaw T bag) :
    Yields (Resources.IsOf T) (fun c => k.Writes w c.statements) (k.emit s w) := by
  obtain ⟨hcollect, hprocedural⟩ := hk T s w ht hraw
  exact WidgetKind.yields_emit_procedural hs hcollect hprocedural

/-- A widget is left out, and then the resources stay as they were, or it is emitted, and then it puts
its block on the page. -/
theorem compileWidget_block (hg : g.IsWritten) (hs : s.target = .procedural)
    (ht : OneLine s.options.timeId) {w : Widget} (hraw : g.HasRawTexts T w) (page : Nat)
    {r : Resources} (hr : r.IsOf T) :
    (∃ ds, compileWidget g s page w r = ({ diagnostics := ds }, r)) ∨
      ∃ (c : Content) (after : Resources) (b : CodeBlock),
        compileWidget g s page w r = ({ content := c, emitted := 1 }, after) ∧ after.IsOf T ∧
          b.IsBlockOf g w ∧ c.statements = b.lines := by
  rcases hk : g.kind? w.kind with _ | k
  · exact .inl ⟨_, compileWidget_unknown hk page⟩
  cases hserves : k.serves s.target with
  | false => exact .inl ⟨_, compileWidget_unserved hk hserves page⟩
  | true =>
    rcases he : runWith (k.emit s w) r with ⟨e | c, after⟩
    · exact .inl ⟨_, compileWidget_failed hk hserves he page⟩
    · have hblocks := hg.blocks w.kind k hk (hs ▸ hserves)
      obtain ⟨⟨bag, hbag, hfollows, hkeys⟩, hafter⟩ :=
        yields_emit hblocks hs ht (hraw k hk) r hr c after he
      obtain ⟨b, hreadable, hlines, hkind, hmarker⟩ := hfollows.readable (hg.key w.kind k hk) hkeys
      exact .inr ⟨c, after, b, compileWidget_emitted hk hserves he page, hafter,
        ⟨hreadable, k, bag, hk, hbag, hkind, hmarker⟩, hlines⟩

theorem compileWidgets_blocks (hg : g.IsWritten) (hs : s.target = .procedural)
    (ht : OneLine s.options.timeId) (page : Nat) {ws : List Widget}
    (hraw : ∀ w ∈ ws, g.HasRawTexts T w) {r : Resources} (hr : r.IsOf T) :
    (compileWidgets g s page ws r).2.IsOf T ∧ ∃ bs : List CodeBlock,
      (compileWidgets g s page ws r).1.content.statements = bs.flatMap CodeBlock.lines ∧
        List.Forall₂ (CodeBlock.IsBlockOf g) (emittedWidgets g s page ws r) bs := by
  induction ws generalizing r with
  | nil => exact ⟨hr, [], rfl, .nil⟩
  | cons w ws ih =>
    have hrest := fun {r : Resources} (hr : r.IsOf T) =>
      ih (fun w' hw' => hraw w' (List.mem_cons_of_mem w hw')) hr
    rw [compileWidgets_cons, emittedWidgets]
    rcases compileWidget_block hg hs ht (hraw w List.mem_cons_self) page hr with
      ⟨ds, hw⟩ | ⟨c, after, b, hw, hafter, hb, hlines⟩
    · obtain ⟨hresources, bs, hstatements, hforall⟩ := hrest hr
      simp only [hw, if_true]
      exact ⟨hresources, bs, hstatements, hforall⟩
    · obtain ⟨hresources, bs, hstatements, hforall⟩ := hrest hafter
      simp only [hw, if_neg Nat.one_ne_zero]
      refine ⟨hresources, b :: bs, ?_, .cons hb hforall⟩
      rw [List.flatMap_cons, ← hlines, ← hstatements]
      rfl

theorem map_index_compilePages (index : Nat) (ps : List Page) (r : Resources) :
    (compilePages g s index ps r).1.map PageProgress.index = List.range' index ps.length := by
  induction ps generalizing index r with
  | nil => rfl
  | cons p ps ih =>
    rw [compilePages_cons, List.map_cons, ih, List.length_cons, List.range'_succ]

/-- A page of a document shows the widgets of a page, one block for each. -/
structure ShowsPage (g : Registry) (blocks : Nat → List CodeBlock) (p : Page) (q : ProceduralPage) :
    Prop where
  name : q.name = p.name
  refreshSeconds : q.refreshSeconds = p.refreshSeconds
  body : q.body = (blocks q.index).flatMap CodeBlock.lines
  widgets : List.Forall₂ (CodeBlock.IsBlockOf g) p.widgets (blocks q.index)

theorem ShowsPage.congr {blocks blocks' : Nat → List CodeBlock} {p : Page} {q : ProceduralPage}
    (h : ShowsPage g blocks p q) (he : blocks' q.index = blocks q.index) : ShowsPage g blocks' p q where
  name := h.name
  refreshSeconds := h.refreshSeconds
  body := by rw [h.body, he]
  widgets := he.symm ▸ h.widgets

/-- The pages from an index on. Later pages have later indices, so the blocks of a page can be entered
under its own. -/
theorem compilePages_blocks (hg : g.IsWritten) (hs : s.target = .procedural)
    (ht : OneLine s.options.timeId) (index : Nat) {ps : List Page}
    (hraw : ∀ p ∈ ps, ∀ w ∈ p.widgets, g.HasRawTexts T w) {r : Resources} (hr : r.IsOf T) :
    (compilePages g s index ps r).2.IsOf T ∧ ∃ blocks : Nat → List CodeBlock,
      List.Forall₂ (fun p q => index ≤ q.index ∧ ShowsPage g blocks p q)
        (emittedPages g s index ps r) ((compilePages g s index ps r).1.map proceduralPage) := by
  induction ps generalizing index r with
  | nil => exact ⟨hr, fun _ => [], .nil⟩
  | cons p ps ih =>
    obtain ⟨hafter, bs, hstatements, hwidgets⟩ := compileWidgets_blocks hg hs ht index
      (hraw p List.mem_cons_self) hr
    obtain ⟨hresources, blocks, hpages⟩ := ih (index + 1)
      (fun p' hp' => hraw p' (List.mem_cons_of_mem p hp')) hafter
    let blocks' : Nat → List CodeBlock := fun i => if i = index then bs else blocks i
    have hfirst : blocks' index = bs := if_pos rfl
    refine ⟨hresources, blocks', ?_⟩
    rw [compilePages_cons, emittedPages, List.map_cons]
    refine .cons ⟨Nat.le_refl _, rfl, rfl, ?_, ?_⟩ (hpages.imp fun p' q hq => ?_)
    · change _ = (blocks' index).flatMap CodeBlock.lines
      rw [hfirst]
      exact hstatements
    · change List.Forall₂ _ _ (blocks' index)
      rw [hfirst]
      exact hwidgets
    · have hlater : q.index ≠ index := Nat.ne_of_gt hq.1
      exact ⟨Nat.le_of_succ_le hq.1, hq.2.congr (if_neg hlater)⟩

end Registry

end Dashboard
