import Dashboard.Proofs.Rebuild.Pages
import Dashboard.Proofs.Rebuild.Scan
import Dashboard.Proofs.Rebuild.Statements
/-!
# The steps of a rebuild

What each kind of line does to a rebuild, said by the pages that it shows. A line without a marker
at most opens the current page. A marker adds its widget to the current page and changes no other
page. The lines of a drawing block after its marker change nothing.
-/

namespace Dashboard

open Text

/-- A page with one more widget, unless its id is taken, and the notice on that. -/
def Page.place (p : Page) (w : Widget) (line : Nat) : Page × List Notice :=
  match p.addWidget w with
  | .ok p => (p, [])
  | .error _ => (p, [.duplicate line w.id])

/-- A page with the widget of a marker, and the notices on it. -/
def Page.takeMarked (g : Registry) (p : Page) (m : Marker) (line : Nat) : Page × List Notice :=
  let (w, notices) := m.widget (g.kind? m.kind) p.widgets.length line
  let (q, taken) := p.place w line
  (q, notices ++ taken)

/-- A page with the widgets of numbered markers, one after the other. -/
def Page.takeAll (g : Registry) : Page → List (Marker × Nat) → Page × List Notice
  | p, [] => (p, [])
  | p, (m, line) :: ms =>
    let (q, notices) := p.takeMarked g m line
    let (q, others) := q.takeAll g ms
    (q, notices ++ others)

namespace Rebuild

/-- The page that a rebuild shows under each index, the indices it knows and its notices. -/
structure Shows (r : Rebuild) (page : Nat → Page) (known : Nat → Prop) (notices : List Notice) :
    Prop where
  ascending : r.pages.Ascending
  page : ∀ i, r.pages.page i = page i
  known : ∀ i, i ∈ r.pages.indices ↔ known i
  notices : r.notices = notices

/-- The function `page` with another value at one place. -/
def changed (page : Nat → Page) (index : Nat) (p : Page) (i : Nat) : Page :=
  if i = index then p else page i

variable {g : Registry} {r : Rebuild} {page : Nat → Page} {known : Nat → Prop}
  {notices : List Notice}

theorem shows_start : Shows {} Page.make (fun _ => False) [] :=
  ⟨List.Pairwise.nil, fun _ => rfl, fun _ => by simp [PageTable.indices], rfl⟩

theorem Shows.changePage (h : r.Shows page known notices) (index : Nat) (f : Page → Page) :
    (r.changePage index f).Shows (changed page index (f (page index)))
      (fun i => i = index ∨ known i) notices where
  ascending := PageTable.ascending_change h.ascending
  page i := by
    rw [Rebuild.changePage, PageTable.page_change h.ascending, changed, h.page, h.page]
  known i := by rw [Rebuild.changePage, PageTable.mem_indices_change, h.known]
  notices := h.notices

theorem Shows.openPage (h : r.Shows page known notices) (index : Nat) :
    (r.openPage index).Shows page (fun i => i = index ∨ known i) notices where
  ascending := PageTable.ascending_change h.ascending
  page i := by rw [Rebuild.openPage, PageTable.page_enter h.ascending, h.page]
  known i := by rw [Rebuild.openPage, PageTable.enter, PageTable.mem_indices_change, h.known]
  notices := h.notices

theorem Shows.notice (h : r.Shows page known notices) (ns : List Notice) :
    (r.notice ns).Shows page known (notices ++ ns) :=
  ⟨h.ascending, h.page, h.known, congrArg (· ++ ns) h.notices⟩

theorem Shows.congr {page' : Nat → Page} {known' : Nat → Prop} (h : r.Shows page known notices)
    (hp : ∀ i, page i = page' i) (hk : ∀ i, known i ↔ known' i) : r.Shows page' known' notices :=
  ⟨h.ascending, fun i => (h.page i).trans (hp i), fun i => (h.known i).trans (hk i), h.notices⟩

/-- Neither the current page nor the state of the body shows. -/
theorem Shows.move (h : r.Shows page known notices) (current : Nat) (inBody : Bool) :
    Shows { r with current, inBody } page known notices := ⟨h.ascending, h.page, h.known, h.notices⟩

/-! ## Lines without a marker -/

section lines

variable {text : String} {number : Nat}

theorem drawingLine_body (hr : r.inBody = true) (h : Statement.ofLine text = .other true) :
    r.drawingLine g ⟨some .drawing, number, text⟩ = r := by
  simp [drawingLine, h, hr]

/-- Any other line that says nothing opens the current page. -/
theorem drawingLine_plain {inBody : Bool} (h : Statement.ofLine text = .other inBody)
    (hbody : (r.inBody && inBody) = false)
    (hundrawn : ∀ ordinal, Widget.recover? text ordinal = none) :
    r.drawingLine g ⟨some .drawing, number, text⟩ = { r.openPage r.current with inBody := false } := by
  simp [drawingLine, h, hbody, addDrawn, hundrawn]

theorem drawingLine_pageTest {index : Nat} (h : Statement.ofLine text = .pageTest index) :
    r.drawingLine g ⟨some .drawing, number, text⟩ =
      { r.openPage index with current := index, inBody := false } := by
  simp [drawingLine, h]

theorem drawingLine_interval {index : Nat} {seconds : UInt32}
    (h : Statement.ofLine text = .interval index seconds) :
    r.drawingLine g ⟨some .drawing, number, text⟩ =
      r.changePage index fun p => { p with refreshSeconds := some seconds } := by
  simp [drawingLine, h]

theorem drawingLine_pageName {name : String} (h : Statement.ofLine text = .pageName name) :
    r.drawingLine g ⟨some .drawing, number, text⟩ =
      r.changePage r.current fun p => { p with name := name } := by
  simp [drawingLine, h]

theorem drawingLine_marker {m : Marker} (h : Statement.ofLine text = .marker m) :
    r.drawingLine g ⟨some .drawing, number, text⟩ = r.addMarked g m number := by
  simp [drawingLine, h]

end lines

theorem Shows.drawPlain (h : r.Shows page known notices) {n : Nat} {cs : List Char}
    (hplain : Statement.IsPlain false cs) (number : Nat) :
    let r' := r.drawingLine g ⟨some .drawing, number, String.ofList (List.replicate n ' ' ++ cs)⟩
    r'.Shows page (fun i => i = r.current ∨ known i) notices ∧ r'.current = r.current ∧
      r'.inBody = false := by
  have hline := hplain.indent n
  intro r'
  have hr' : r' = { r.openPage r.current with inBody := false } :=
    drawingLine_plain hline.statement (Bool.and_false _) (hline.undrawn rfl)
  rw [hr']
  exact ⟨(h.openPage r.current).move _ _, rfl, rfl⟩

/-! ## Markers -/

theorem Shows.add (h : r.Shows page known notices) (hk : known r.current) (w : Widget) (line : Nat) :
    (r.add w line).Shows (changed page r.current ((page r.current).place w line).1) known
      (notices ++ ((page r.current).place w line).2) := by
  have hcurrent : r.currentPage = page r.current := h.page r.current
  rw [Rebuild.add, hcurrent, Page.place]
  cases (page r.current).addWidget w with
  | ok p =>
    simp only [List.append_nil]
    refine (h.changePage r.current fun _ => p).congr (fun _ => rfl) fun i => ?_
    exact ⟨fun hi => hi.elim (fun he => he ▸ hk) fun hi => hi, .inr⟩
  | error e =>
    refine (h.notice [.duplicate line w.id]).congr (fun i => ?_) fun _ => Iff.rfl
    unfold changed
    split
    · rename_i hi
      rw [hi]
    · rfl

theorem current_add (w : Widget) (line : Nat) : (r.add w line).current = r.current := by
  rw [Rebuild.add]
  split <;> rfl

theorem Shows.addMarked (h : r.Shows page known notices) (m : Marker) (line : Nat) :
    (r.addMarked g m line).Shows
      (changed page r.current ((page r.current).takeMarked g m line).1)
      (fun i => i = r.current ∨ known i)
      (notices ++ ((page r.current).takeMarked g m line).2) := by
  have hcurrent : r.currentPage = page r.current := h.page r.current
  rw [Rebuild.addMarked, hcurrent, Page.takeMarked]
  rcases m.widget (g.kind? m.kind) (page r.current).widgets.length line with ⟨w, ns⟩
  have hadd := ((h.openPage r.current).notice ns).add (.inl rfl) w line
  rw [List.append_assoc] at hadd
  exact hadd.move _ true

theorem current_addMarked (m : Marker) (line : Nat) :
    (r.addMarked g m line).current = r.current := current_add _ line

theorem inBody_addMarked (m : Marker) (line : Nat) : (r.addMarked g m line).inBody = true := rfl

end Rebuild

end Dashboard
