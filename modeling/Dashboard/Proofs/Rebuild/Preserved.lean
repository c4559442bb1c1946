import Dashboard.Rebuild.Layout
/-!
# What holds of all rebuilt pages

A rebuild makes empty pages, names and times them, and adds the widgets of markers and of drawings to them.
What these steps keep holds of every page of a rebuilt layout, whatever the configuration says.
-/

namespace Dashboard

/-- A statement about pages that every change of a page in a rebuild keeps. -/
structure Registry.Keeps (g : Registry) (P : Page → Prop) : Prop where
  made : ∀ index, P (Page.make index)
  named : ∀ p name, P p → P { p with name }
  timed : ∀ p seconds, P p → P { p with refreshSeconds := some seconds }
  moved : ∀ index place p, P p → P (PageTable.renumber index place p)
  marked : ∀ (p q : Page) (m : Marker) (ordinal line : Nat), P p →
    p.addWidget (m.widget (g.kind? m.kind) ordinal line).1 = .ok q → P q
  drawn : ∀ (p q : Page) (text : String) (ordinal : Nat) (w : Widget), P p →
    Widget.recover? text ordinal = some w → p.addWidget w = .ok q → P q

variable {g : Registry} {P : Page → Prop}

namespace PageTable

variable {t : PageTable} {index : Nat} {f : Page → Page}

theorem forall_entries_change {Q : Nat → Page → Prop} (ht : ∀ e ∈ t, Q e.1 e.2)
    (hnew : Q index (f (Page.make index))) (hf : ∀ p, Q index p → Q index (f p)) :
    ∀ e ∈ change index f t, Q e.1 e.2 := by
  induction t with
  | nil => exact List.forall_mem_singleton.mpr hnew
  | cons e t ih =>
    obtain ⟨he, hrest⟩ := List.forall_mem_cons.mp ht
    rw [change]
    split
    · exact List.forall_mem_cons.mpr ⟨hnew, ht⟩
    · split
      · next heq =>
        subst heq
        exact List.forall_mem_cons.mpr ⟨hf _ he, hrest⟩
      · exact List.forall_mem_cons.mpr ⟨he, ih hrest⟩

theorem forall_change (ht : ∀ e ∈ t, P e.2) (hnew : P (f (Page.make index))) (hf : ∀ p, P p → P (f p)) :
    ∀ e ∈ change index f t, P e.2 :=
  forall_entries_change (Q := fun _ => P) ht hnew hf

theorem page_of_forall (ht : ∀ e ∈ t, P e.2) (hnew : P (Page.make index)) : P (t.page index) := by
  rw [page]
  cases hp : t.lookup index with
  | none => exact hnew
  | some p =>
    obtain ⟨front, back, rfl, -⟩ := List.lookup_eq_some_iff.mp hp
    exact ht (index, p) (List.mem_append_right front List.mem_cons_self)

theorem forall_pagesFrom (hg : g.Keeps P) (ht : ∀ e ∈ t, P e.2) (place : Nat) :
    ∀ p ∈ (pagesFrom place t).1, P p := by
  induction t generalizing place with
  | nil => exact fun _ hp => absurd hp List.not_mem_nil
  | cons e t ih =>
    obtain ⟨index, p⟩ := e
    obtain ⟨hp, hrest⟩ := List.forall_mem_cons.mp ht
    rw [pagesFrom]
    split
    · exact List.forall_mem_cons.mpr ⟨hg.moved index place p hp, ih hrest _⟩
    · refine List.forall_mem_append.mpr ⟨fun q hq => ?_, List.forall_mem_cons.mpr ⟨hp, ih hrest _⟩⟩
      obtain ⟨i, -, rfl⟩ := List.mem_map.mp hq
      exact hg.made _

end PageTable

namespace Rebuild

/-- All pages of a rebuild satisfy a statement. -/
def Holds (P : Page → Prop) (r : Rebuild) : Prop := ∀ e ∈ r.pages, P e.2

namespace Holds

variable {r : Rebuild}

theorem currentPage (hg : g.Keeps P) (h : r.Holds P) : P r.currentPage :=
  PageTable.page_of_forall h (hg.made r.current)

theorem openPage (hg : g.Keeps P) (h : r.Holds P) (index : Nat) : (r.openPage index).Holds P :=
  PageTable.forall_change h (hg.made index) fun _ hp => hp

theorem add (h : r.Holds P) {w : Widget} (hw : ∀ q, r.currentPage.addWidget w = .ok q → P q) (line : Nat) :
    (r.add w line).Holds P := by
  rw [Rebuild.add]
  split
  · next q hq => exact PageTable.forall_change h (hw q hq) fun _ _ => hw q hq
  · exact h

theorem addMarked (hg : g.Keeps P) (h : r.Holds P) (m : Marker) (line : Nat) : (r.addMarked g m line).Holds P := by
  let ordinal := r.currentPage.widgets.length
  let read := m.widget (g.kind? m.kind) ordinal line
  have hnoted : ((r.openPage r.current).notice read.2).Holds P := h.openPage hg r.current
  have hadded : (((r.openPage r.current).notice read.2).add read.1 line).Holds P :=
    hnoted.add (fun q hq => hg.marked _ q m ordinal line (hnoted.currentPage hg) hq) line
  exact hadded

theorem addDrawn (hg : g.Keeps P) (h : r.Holds P) (text : String) (line : Nat) :
    (r.addDrawn text line).Holds P := by
  have hopened : ({ r.openPage r.current with inBody := false } : Rebuild).Holds P := h.openPage hg r.current
  rw [Rebuild.addDrawn]
  split
  · next w hw => exact hopened.add (fun q hq => hg.drawn _ q text _ w (hopened.currentPage hg) hw hq) line
  · exact hopened

end Holds

theorem holds_drawingLine (hg : g.Keeps P) {r : Rebuild} (h : r.Holds P) (l : RegionLine) :
    (r.drawingLine g l).Holds P := by
  rw [drawingLine]
  split
  · exact h.addMarked hg _ l.number
  · exact h.openPage hg _
  · exact PageTable.forall_change h (hg.timed _ _ (hg.made _)) fun p hp => hg.timed p _ hp
  · exact h
  · exact PageTable.forall_change h (hg.named _ _ (hg.made _)) fun p hp => hg.named p _ hp
  · split
    · exact h
    · exact h.addDrawn hg l.text l.number

theorem holds_line (hg : g.Keeps P) {r : Rebuild} (h : r.Holds P) (l : RegionLine) : (line g r l).Holds P := by
  rw [line]
  split
  · exact h
  · exact holds_drawingLine hg h l
  · rw [retainedLine]
    split
    · exact h.openPage hg _
    · exact h

theorem holds_run (hg : g.Keeps P) (text : String) : (run g text).Holds P :=
  List.foldlRecOn (motive := Holds P) _ _ (fun _ he => absurd he List.not_mem_nil) fun _ h l _ => holds_line hg h l

end Rebuild

/-- What the steps of a rebuild keep holds of all pages of the rebuilt layout. -/
theorem Layout.forall_pages_ofConfiguration (hg : g.Keeps P) (text : String) :
    ∀ p ∈ (Layout.ofConfiguration g text).1.pages, P p := by
  rw [ofConfiguration, Rebuild.layout]
  split
  · exact List.forall_mem_singleton.mpr (hg.made 0)
  · exact PageTable.forall_pagesFrom hg (Rebuild.holds_run hg text) 0

end Dashboard
