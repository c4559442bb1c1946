import Dashboard.Proofs.Rebuild.Accounts
/-!
# What a rebuild records

A rebuild finds the indices of its pages in page tests, in intervals and in the entries of a retained
region, and all of these are machine words. A page keeps the id of its index for as long as the lines are
read, and no notice speaks of a page that was moved: the places of the pages are found in the end.
-/

namespace Dashboard

open Text Number

/-- Whether a notice says that a page was moved. -/
def Notice.isMoved : Notice → Bool
  | .moved .. => true
  | _ => false

theorem Notice.isMoved_of_isOnMarker {n : Notice} (h : n.isOnMarker) : n.isMoved = false := by
  cases n with
  | moved index place => cases h
  | _ => rfl

theorem Number.readNat?_lt {limit n : Nat} {cs : List Char} (h : readNat? limit cs = some n) : n < limit :=
  of_decide_eq_true (Option.filter_eq_some_iff.mp h).2

namespace Statement

/-- The index that a statement names is a machine word. -/
def IsNumbered : Statement → Prop
  | .pageTest index => index < twoTo 64
  | .interval index _ => index < twoTo 64
  | _ => True

theorem pageTest?_lt {cs : List Char} {index : Nat} (h : pageTest? cs = some index) : index < twoTo 64 := by
  simp only [pageTest?, Option.bind_eq_bind, Option.bind_eq_some_iff] at h
  obtain ⟨_, -, _, -, _, -, _, -, digits, -, rest, -, hread⟩ := h
  split at hread
  · exact readNat?_lt hread
  · cases hread

theorem isNumbered_ofInterval (page seconds : List Char) : (ofInterval page seconds).IsNumbered := by
  rw [ofInterval]
  split
  · next index seconds hindex _ => exact readNat?_lt hindex
  · trivial

theorem isNumbered_ofLine (line : String) : (ofLine line).IsNumbered := by
  unfold ofLine
  dsimp only
  split
  · trivial
  · split
    · next index hindex => exact pageTest?_lt hindex
    · split
      · exact isNumbered_ofInterval _ _
      · split <;> trivial

end Statement

namespace Rebuild

theorem retainedPage?_lt {cs : List Char} {index : Nat} (h : retainedPage? cs = some index) :
    index < twoTo 64 := by
  obtain ⟨rest, -, hread⟩ := Option.bind_eq_some_iff.mp h
  exact readNat?_lt hread

end Rebuild

/-- The pages of a table have the ids of their indices. -/
def PageTable.IsNumbered (t : PageTable) : Prop := ∀ e ∈ t, e.1 < twoTo 64 ∧ e.2.id = (Page.make e.1).id

theorem PageTable.IsNumbered.change {t : PageTable} (h : t.IsNumbered) {index : Nat} (hindex : index < twoTo 64)
    {f : Page → Page} (hf : ∀ p, p.id = (Page.make index).id → (f p).id = (Page.make index).id) :
    (t.change index f).IsNumbered :=
  forall_entries_change (Q := fun i p => i < twoTo 64 ∧ p.id = (Page.make i).id) h ⟨hindex, hf _ rfl⟩
    fun p hp => ⟨hindex, hf p hp.2⟩

theorem PageTable.IsNumbered.page {t : PageTable} (h : t.IsNumbered) (index : Nat) :
    (t.page index).id = (Page.make index).id := by
  induction t with
  | nil => rfl
  | cons e t ih =>
    obtain ⟨he, hrest⟩ := List.forall_mem_cons.mp h
    rw [page_cons]
    split
    · next hindex =>
      rw [hindex]
      exact he.2
    · exact ih hrest

namespace Rebuild

/-- What holds of a rebuild whatever lines it has read. -/
structure IsRecorded (r : Rebuild) : Prop where
  current : r.current < twoTo 64
  pages : r.pages.IsNumbered
  notices : ∀ n ∈ r.notices, n.isMoved = false

variable {g : Registry} {r : Rebuild}

theorem isRecorded_start : IsRecorded {} where
  current := by decide
  pages := fun _ he => absurd he List.not_mem_nil
  notices := fun _ hn => absurd hn List.not_mem_nil

namespace IsRecorded

theorem changePage (h : r.IsRecorded) {index : Nat} (hindex : index < twoTo 64) {f : Page → Page}
    (hf : ∀ p, p.id = (Page.make index).id → (f p).id = (Page.make index).id) :
    (r.changePage index f).IsRecorded :=
  ⟨h.current, h.pages.change hindex hf, h.notices⟩

theorem openPage (h : r.IsRecorded) {index : Nat} (hindex : index < twoTo 64) : (r.openPage index).IsRecorded :=
  h.changePage hindex fun _ hp => hp

theorem move (h : r.IsRecorded) {current : Nat} (hcurrent : current < twoTo 64) (inBody : Bool) :
    IsRecorded { r with current, inBody } := ⟨hcurrent, h.pages, h.notices⟩

theorem notice (h : r.IsRecorded) {ns : List Notice} (hns : ∀ n ∈ ns, n.isMoved = false) :
    (r.notice ns).IsRecorded :=
  ⟨h.current, h.pages, List.forall_mem_append.mpr ⟨h.notices, hns⟩⟩

theorem add (h : r.IsRecorded) (w : Widget) (line : Nat) : (r.add w line).IsRecorded := by
  by_cases hid : w.id ∈ r.currentPage.widgets.map Widget.id
  · rw [Rebuild.add, Page.addWidget_of_mem hid]
    exact h.notice (List.forall_mem_singleton.mpr rfl)
  · rw [Rebuild.add, Page.addWidget_of_not_mem hid]
    exact h.changePage h.current fun _ _ => h.pages.page r.current

theorem addMarked (h : r.IsRecorded) (m : Marker) (line : Nat) : (r.addMarked g m line).IsRecorded := by
  have hmarker : ∀ n ∈ (m.widget (g.kind? m.kind) r.currentPage.widgets.length line).2, n.isOnMarker :=
    Marker.isOnMarker_widget m r.currentPage.widgets.length line
  have hnoted := (h.openPage h.current).notice fun n hn => Notice.isMoved_of_isOnMarker (hmarker n hn)
  have hadded := hnoted.add (m.widget (g.kind? m.kind) r.currentPage.widgets.length line).1 line
  exact hadded.move hadded.current true

theorem addDrawn (h : r.IsRecorded) (text : String) (line : Nat) : (r.addDrawn text line).IsRecorded := by
  have hopened := (h.openPage h.current).move h.current false
  rw [Rebuild.addDrawn]
  split
  · exact hopened.add _ line
  · exact hopened

theorem drawingLine (h : r.IsRecorded) (l : RegionLine) : (r.drawingLine g l).IsRecorded := by
  have hnumbered := Statement.isNumbered_ofLine l.text
  rw [Rebuild.drawingLine]
  cases hs : Statement.ofLine l.text with
  | marker m => exact h.addMarked m l.number
  | pageTest index =>
    rw [hs] at hnumbered
    exact (h.openPage hnumbered).move hnumbered false
  | interval index seconds =>
    rw [hs] at hnumbered
    exact h.changePage hnumbered fun _ hp => hp
  | unreadableInterval => exact h
  | pageName name => exact h.changePage h.current fun _ hp => hp
  | other inBody =>
    dsimp only
    split
    · exact h
    · exact h.addDrawn l.text l.number

theorem line (h : r.IsRecorded) (l : RegionLine) : (Rebuild.line g r l).IsRecorded := by
  rw [Rebuild.line]
  split
  · exact h
  · exact h.drawingLine l
  · rw [retainedLine]
    split
    · next index hindex => exact h.openPage (retainedPage?_lt hindex)
    · exact h

end IsRecorded

theorem isRecorded_run (g : Registry) (text : String) : (run g text).IsRecorded :=
  List.foldlRecOn (motive := IsRecorded) _ _ isRecorded_start fun _ h l _ => h.line l

end Rebuild

end Dashboard
