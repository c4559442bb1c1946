import Dashboard.Proofs.Compile.Document
import Dashboard.Proofs.Compile.Skipping
/-!
# Pages whose widgets all come back

If the block of every widget brings a widget back, without a notice and under the same id, then a document
of such blocks is rebuilt, without a notice, into pages with exactly the widgets that came back.
-/

namespace Dashboard

open Number

variable {g : Registry} {R : Widget → Widget → Prop}

/-- Any block of a widget brings back one of the same id, which is in a relation to the widget. -/
def Widget.ComesBack (g : Registry) (R : Widget → Widget → Prop) (w : Widget) : Prop :=
  ∀ b : CodeBlock, b.IsBlockOf g w → ∀ ordinal line, ∃ back : Widget,
    b.marker.widget (g.kind? b.marker.kind) ordinal line = (back, []) ∧ back.id = w.id ∧ R w back

/-- A page that came back with all its widgets. Its name is as the scanner shows it. -/
structure Page.ComesBack (R : Widget → Widget → Prop) (p back : Page) : Prop where
  name : back.name = Rebuild.scannedName p.name
  refreshSeconds : back.refreshSeconds = p.refreshSeconds
  widgets : List.Forall₂ R p.widgets back.widgets

namespace Page

/-- A page takes all widgets of blocks whose ids are new to it. -/
theorem takeAll_comesBack {ws : List Widget} {bs : List CodeBlock}
    (h : List.Forall₂ (CodeBlock.IsBlockOf g) ws bs) (hws : ∀ w ∈ ws, w.ComesBack g R) (p : Page)
    (hids : ((p.widgets ++ ws).map Widget.id).Nodup) (line : Nat) : ∃ backs : List Widget,
      p.takeAll g (CodeBlock.numbered line bs) = ({ p with widgets := p.widgets ++ backs }, []) ∧
        List.Forall₂ R ws backs := by
  induction h generalizing p line with
  | nil => exact ⟨[], by rw [List.append_nil]; rfl, .nil⟩
  | @cons w b ws bs hb _ ih =>
    obtain ⟨hw, hws⟩ := List.forall_mem_cons.mp hws
    obtain ⟨back, hback, hid, hrelated⟩ := hw b hb p.widgets.length line
    have hnew : back.id ∉ p.widgets.map Widget.id := by
      rw [hid]
      intro hmem
      rw [List.map_append, List.map_cons] at hids
      exact (List.nodup_append.mp hids).2.2 w.id hmem w.id List.mem_cons_self rfl
    have htaken : p.takeMarked g b.marker line = ({ p with widgets := p.widgets ++ [back] }, []) := by
      simp only [takeMarked, hback, place, addWidget_of_not_mem hnew, List.append_nil]
    have hids' : ((p.widgets ++ [back] ++ ws).map Widget.id).Nodup := by
      simpa [hid] using hids
    obtain ⟨backs, htake, hbacks⟩ := ih hws { p with widgets := p.widgets ++ [back] } hids'
      (line + b.lines.length)
    refine ⟨back :: backs, ?_, .cons hrelated hbacks⟩
    simp only [CodeBlock.numbered, takeAll, htaken, htake, List.append_assoc, List.cons_append,
      List.nil_append]

theorem exists_drawn {p : Page} {q : ProceduralPage} {blocks : Nat → List CodeBlock}
    (h : Registry.ShowsPage g blocks p q) (hids : (p.widgets.map Widget.id).Nodup)
    (hws : ∀ w ∈ p.widgets, w.ComesBack g R) (line : Nat) : ∃ back : Page,
      Rebuild.drawn g (Rebuild.declared q) q.name line (blocks q.index) = (back, []) ∧
        p.ComesBack R back := by
  obtain ⟨backs, htake, hbacks⟩ := takeAll_comesBack h.widgets hws
    { Rebuild.declared q with name := Rebuild.scannedName q.name } hids line
  exact ⟨_, htake, congrArg Rebuild.scannedName h.name, h.refreshSeconds, hbacks⟩

theorem drawn_pages {blocks : Nat → List CodeBlock} {ps : List Page} {qs : List ProceduralPage}
    (h : List.Forall₂ (Registry.ShowsPage g blocks) ps qs)
    (hps : ∀ p ∈ ps, (p.widgets.map Widget.id).Nodup ∧ ∀ w ∈ p.widgets, w.ComesBack g R)
    (line : Nat → Nat) :
    let drawn := fun q : ProceduralPage =>
      Rebuild.drawn g (Rebuild.declared q) q.name (line q.index) (blocks q.index)
    qs.flatMap (fun q => (drawn q).2) = [] ∧
      List.Forall₂ (ComesBack R) ps (qs.map fun q => (drawn q).1) := by
  intro drawn
  induction h with
  | nil => exact ⟨rfl, .nil⟩
  | @cons p q ps qs hpq _ ih =>
    obtain ⟨⟨hids, hws⟩, hps⟩ := List.forall_mem_cons.mp hps
    obtain ⟨back, hback, hcomes⟩ := exists_drawn hpq hids hws (line q.index)
    obtain ⟨hnotices, hbacks⟩ := ih hps
    have hdrawn : drawn q = (back, []) := hback
    rw [List.flatMap_cons, List.map_cons, hdrawn, hnotices]
    exact ⟨rfl, .cons hcomes hbacks⟩

end Page

namespace Registry

variable {o : Options} {l : Layout}

/-- A layout that is emitted as a whole and whose widgets all come back is rebuilt without a notice, and
all its widgets are there. -/
theorem ofConfiguration_comesBack (hg : g.IsWritten) (ho : o.IsOneLine) (hpages : l.pages ≠ [])
    (hcount : l.pages.length ≤ twoTo 64) (hraw : ∀ t ∈ (document g o l).rawTexts, Text.OneLine t)
    (hall : emittedLayout g o l .procedural = l)
    (hids : ∀ p ∈ l.pages, (p.widgets.map Widget.id).Nodup)
    (hback : ∀ w ∈ l.widgets, w.ComesBack g R) : ∃ back : Layout,
      Layout.ofConfiguration g (document g o l).text = (back, []) ∧
        List.Forall₂ (Page.ComesBack R) l.pages back.pages := by
  obtain ⟨blocks, hblocks⟩ := document_blocks (l := l) hg ho.timeId
  obtain ⟨-, hfull⟩ := Rebuild.ofConfiguration_text (g := g) (isContained_document hg ho hraw)
    (hasBlocks_of_showsPage hblocks) (isNumbered_document hcount)
  rw [hall] at hblocks
  have hdrawn : (document g o l).pages ≠ [] := by
    intro hempty
    rw [hempty, List.forall₂_nil_right_iff] at hblocks
    exact hpages hblocks
  obtain ⟨line, hrebuilt⟩ := hfull hdrawn
  obtain ⟨hnotices, hcomes⟩ := Page.drawn_pages hblocks
    (fun p hp => ⟨hids p hp, fun w hw => hback w (List.mem_flatMap.mpr ⟨p, hp, hw⟩)⟩) line
  rw [hnotices] at hrebuilt
  exact ⟨_, hrebuilt, hcomes⟩

end Registry

end Dashboard
