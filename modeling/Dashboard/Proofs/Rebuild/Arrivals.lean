import Dashboard.Proofs.Rebuild.Places
import Dashboard.Rebuild.Layout
/-!
# The widgets that arrive in a rebuild

A line of drawing code brings a widget if it is a marker, or if it draws a shape and does not belong to
the code of a marked widget. The page that is open at the line takes the widget or, if it has one of
that id, refuses it with a notice. All other lines leave the widgets of all pages alone. So the pages
of a rebuild and its notices can be read off the list of arrivals, whatever the configuration says.
-/

namespace Dashboard

open Text

/-! ## Lines that bring widgets -/

namespace Statement

def marker? : Statement → Option Marker
  | .marker m => some m
  | _ => none

theorem marker?_ofInterval (page seconds : List Char) : (ofInterval page seconds).marker? = none := by
  unfold ofInterval
  split <;> rfl

/-- Markers come first: a line that is a marker is read as nothing else. -/
theorem marker?_ofLine (line : String) : (ofLine line).marker? = Marker.ofLine? line := by
  unfold ofLine
  cases Marker.ofLine? line with
  | some m => rfl
  | none =>
    dsimp only
    split
    · rfl
    · split
      · exact marker?_ofInterval _ _
      · split <;> rfl

end Statement

namespace RegionLine

/-- The marker of a line of drawing code. -/
def marker? (l : RegionLine) : Option Marker :=
  if l.region = some .drawing then Marker.ofLine? l.text else none

/-- The index of the page that is open after a line. Only the page tests in drawing code change it. -/
def openAfter (index : Nat) (l : RegionLine) : Nat :=
  match l.region, Statement.ofLine l.text with
  | some .drawing, .pageTest i => i
  | _, _ => index

end RegionLine

/-- A marker in a configuration, with the number of its line and the index of the page that is open
there. -/
structure MarkedLine where
  number : Nat
  marker : Marker
  index : Nat

namespace MarkedLine

/-- The markers in the lines of a configuration, from a line at which some page is open. -/
def ofLines (index : Nat) : List RegionLine → List MarkedLine
  | [] => []
  | l :: ls => (l.marker?.map fun m => ⟨l.number, m, index⟩).toList ++ ofLines (l.openAfter index) ls

end MarkedLine

namespace Rebuild

/-- The widget that a line of drawing code brings without a marker, in a state of the rebuild. -/
def drawn? (r : Rebuild) (l : RegionLine) : Option Widget :=
  match l.region, Statement.ofLine l.text with
  | some .drawing, .other inBody =>
    if r.inBody && inBody then none else Widget.recover? l.text r.currentPage.widgets.length
  | _, _ => none

/-- The widgets that lines bring without a marker, with the numbers of the lines. -/
def drawnWidgets (g : Registry) (r : Rebuild) : List RegionLine → List (Nat × Widget)
  | [] => []
  | l :: ls => ((r.drawn? l).map fun w => (l.number, w)).toList ++ drawnWidgets g (line g r l) ls

end Rebuild

/-- A widget that a line brings. -/
structure Arrival where
  line : Nat
  /-- The marker of the line, unless it is a drawing call. -/
  marker : Option Marker
  /-- The index of the page that is open at the line. -/
  index : Nat
  widget : Widget
  /-- Whether the page takes the widget. -/
  isTaken : Bool

namespace Arrival

def marked? (a : Arrival) : Option MarkedLine := a.marker.map fun m => ⟨a.line, m, a.index⟩

/-- The notice on a widget that its page refuses. -/
def refusal (a : Arrival) : Notice := .duplicate a.line a.widget.id

/-- The widgets that a page takes. -/
def takenAt (index : Nat) (as : List Arrival) : List Widget :=
  (as.filter fun a => a.isTaken && a.index == index).map widget

def refusals (as : List Arrival) : List Notice := (as.filter fun a => !a.isTaken).map refusal

theorem takenAt_append (index : Nat) (as bs : List Arrival) :
    takenAt index (as ++ bs) = takenAt index as ++ takenAt index bs := by
  rw [takenAt, List.filter_append, List.map_append]
  rfl

theorem takenAt_refused {a : Arrival} (h : a.isTaken = false) (index : Nat) : takenAt index [a] = [] := by
  simp [takenAt, h]

theorem takenAt_taken {a : Arrival} (h : a.isTaken = true) (index : Nat) :
    takenAt index [a] = if index = a.index then [a.widget] else [] := by
  by_cases hindex : index = a.index
  · simp [takenAt, h, hindex]
  · simp [takenAt, h, hindex, Ne.symm hindex]

theorem refusals_append (as bs : List Arrival) : refusals (as ++ bs) = refusals as ++ refusals bs := by
  rw [refusals, List.filter_append, List.map_append]
  rfl

theorem refusals_refused {a : Arrival} (h : a.isTaken = false) : refusals [a] = [a.refusal] := by
  simp [refusals, h]

theorem refusals_taken {a : Arrival} (h : a.isTaken = true) : refusals [a] = [] := by
  simp [refusals, h]

end Arrival

namespace Rebuild

/-- A widget arrives at the current page. -/
def arrival (r : Rebuild) (line : Nat) (marker : Option Marker) (w : Widget) : Arrival :=
  ⟨line, marker, r.current, w, !(r.currentPage.widget? w.id).isSome⟩

/-- The widget that arrives with a line. -/
def arrival? (g : Registry) (r : Rebuild) (l : RegionLine) : Option Arrival :=
  match l.marker? with
  | some m =>
    some (r.arrival l.number m (m.widget (g.kind? m.kind) r.currentPage.widgets.length l.number).1)
  | none => (r.drawn? l).map (r.arrival l.number none)

theorem arrival?_drawing (g : Registry) (r : Rebuild) (number : Nat) (text : String) :
    r.arrival? g ⟨some .drawing, number, text⟩ = match Statement.ofLine text with
      | .marker m =>
        some (r.arrival number m (m.widget (g.kind? m.kind) r.currentPage.widgets.length number).1)
      | .other inBody =>
        if r.inBody && inBody then none
        else (Widget.recover? text r.currentPage.widgets.length).map (r.arrival number none)
      | _ => none := by
  have hmarker : RegionLine.marker? ⟨some .drawing, number, text⟩ = (Statement.ofLine text).marker? :=
    (if_pos rfl).trans (Statement.marker?_ofLine text).symm
  rw [arrival?, hmarker, drawn?]
  cases Statement.ofLine text with
  | other inBody =>
    dsimp only [Statement.marker?]
    split <;> rfl
  | _ => rfl

/-- The widgets that arrive with lines, from a state of the rebuild on. -/
def arrivals (g : Registry) (r : Rebuild) : List RegionLine → List Arrival
  | [] => []
  | l :: ls => (r.arrival? g l).toList ++ arrivals g (line g r l) ls

end Rebuild

/-! ## One line -/

/-- Whether a notice is about what a marker says. -/
def Notice.isOnMarker : Notice → Bool
  | .withoutId .. | .unknownKind .. | .unreadable .. => true
  | .duplicate .. | .moved .. => false

theorem Notice.isDuplicate_of_isOnMarker {n : Notice} (h : n.isOnMarker) : n.isDuplicate = false := by
  cases n with
  | duplicate line id => cases h
  | _ => rfl

namespace Marker

variable {kind? : Option WidgetKind}

/-- Adding properties leaves the rest of a widget as it is. -/
theorem exists_addProps_eq (kind? : Option WidgetKind) (line : Nat) (w : Widget) (fields : List (String × String)) :
    ∃ props, (addProps kind? line w fields).1 = { w with props } := by
  induction fields generalizing w with
  | nil => exact ⟨w.props, rfl⟩
  | cons f fields ih =>
    obtain ⟨key, raw⟩ := f
    rw [addProps]
    split
    · next property value _ =>
      obtain ⟨props, hprops⟩ := ih (w.withProp property value)
      exact ⟨props, hprops⟩
    · exact ih w

/-- The notices on properties that were not added. -/
theorem exists_of_mem_addProps {line : Nat} {w : Widget} {fields : List (String × String)} {n : Notice}
    (hn : n ∈ (addProps kind? line w fields).2) : ∃ id raw property, n = .unreadable line id raw property := by
  induction fields generalizing w with
  | nil => exact absurd hn List.not_mem_nil
  | cons f fields ih =>
    obtain ⟨key, raw⟩ := f
    rw [addProps] at hn
    split at hn
    · exact ih hn
    · rcases List.mem_cons.mp hn with rfl | hn
      · exact ⟨_, _, _, rfl⟩
      · exact ih hn

theorem kind_widget (m : Marker) (ordinal line : Nat) :
    (m.widget kind? ordinal line).1.kind = m.kind := by
  obtain ⟨props, hprops⟩ := exists_addProps_eq kind? line (m.frame (m.idOr ordinal line).1) m.propFields
  exact congrArg Widget.kind hprops

/-- The notices of a marker are on its line, and on its id, its kind or one of its properties. -/
theorem mem_widget_cases {m : Marker} {ordinal line : Nat} {n : Notice}
    (hn : n ∈ (m.widget kind? ordinal line).2) : (∃ id, n = .withoutId line id) ∨
      n = .unknownKind line m.kind ∨ ∃ id raw property, n = .unreadable line id raw property := by
  rcases List.mem_append.mp hn with hn | hn
  · rcases List.mem_append.mp hn with hn | hn
    · left
      change n ∈ (m.idOr ordinal line).2 at hn
      unfold idOr at hn
      split at hn
      · exact absurd hn List.not_mem_nil
      · exact ⟨_, List.mem_singleton.mp hn⟩
    · right; left
      split at hn
      · exact absurd hn List.not_mem_nil
      · exact List.mem_singleton.mp hn
  · exact .inr (.inr (exists_of_mem_addProps hn))

/-- Reading a marker gives notices on the marker only. -/
theorem isOnMarker_widget (m : Marker) (ordinal line : Nat) :
    ∀ n ∈ (m.widget kind? ordinal line).2, n.isOnMarker := by
  intro n hn
  rcases mem_widget_cases hn with ⟨_, rfl⟩ | rfl | ⟨_, _, _, rfl⟩
  all_goals rfl

end Marker

namespace PageTable

variable {t : PageTable}

/-- All widgets of a table, page by page. -/
def widgets (t : PageTable) : List Widget := t.flatMap fun e => e.2.widgets

theorem length_widgets_cons (i : Nat) (p : Page) (t : PageTable) :
    (widgets ((i, p) :: t)).length = p.widgets.length + (widgets t).length := by
  rw [widgets, List.flatMap_cons, List.length_append]
  rfl

/-- Changing a page changes the number of widgets by what it changes on that page. -/
theorem length_widgets_change (h : Ascending t) (index : Nat) (f : Page → Page) :
    (widgets (change index f t)).length + (page t index).widgets.length =
      (widgets t).length + (f (page t index)).widgets.length := by
  have hnone : (Page.make index).widgets.length = 0 := rfl
  induction t with
  | nil =>
    have hlength := length_widgets_cons index (f (Page.make index)) []
    exact hlength.trans (Nat.add_comm _ _)
  | cons e t ih =>
    obtain ⟨k, p⟩ := e
    have hk : ∀ i ∈ indices t, k < i := (List.pairwise_cons.mp h).1
    rw [change]
    split
    · next hlt =>
      have habsent : index ∉ indices ((k, p) :: t) := by
        intro hm
        rcases List.mem_cons.mp hm with rfl | hm
        · exact Nat.lt_irrefl _ hlt
        · exact Nat.lt_asymm hlt (hk index hm)
      rw [page_of_not_mem habsent, hnone, Nat.add_zero, length_widgets_cons]
      exact Nat.add_comm _ _
    · split
      · next heq =>
        rw [page_cons, if_pos heq, length_widgets_cons, length_widgets_cons]
        omega
      · next hne =>
        have hrest := ih (List.pairwise_cons.mp h).2
        rw [page_cons, if_neg hne, length_widgets_cons, length_widgets_cons]
        omega

end PageTable

namespace Rebuild

/-- The pages and notices of a rebuild tell what became of the widgets that arrived. -/
structure AccountsFor (r : Rebuild) (as : List Arrival) : Prop where
  ascending : r.pages.Ascending
  known : ∀ a ∈ as, a.index ∈ r.pages.indices
  widgets : ∀ i, (r.pages.page i).widgets = Arrival.takenAt i as
  count : r.pages.widgets.length = (as.filter Arrival.isTaken).length
  duplicates : r.notices.filter Notice.isDuplicate = Arrival.refusals as
  refused : ∀ a ∈ as, a.isTaken = false →
    ∃ b ∈ as, b.isTaken = true ∧ b.index = a.index ∧ b.widget.id = a.widget.id

variable {g : Registry} {r : Rebuild} {as : List Arrival}

theorem accountsFor_start : AccountsFor {} [] where
  ascending := List.Pairwise.nil
  known := fun _ ha => absurd ha List.not_mem_nil
  widgets := fun _ => rfl
  count := rfl
  duplicates := rfl
  refused := fun _ ha => absurd ha List.not_mem_nil

namespace AccountsFor

/-- A change of a page that leaves its widgets alone. -/
theorem changePage (h : r.AccountsFor as) (index : Nat) {f : Page → Page}
    (hf : ∀ p, (f p).widgets = p.widgets) : (r.changePage index f).AccountsFor as where
  ascending := PageTable.ascending_change h.ascending
  known a ha := PageTable.mem_indices_change.mpr (.inr (h.known a ha))
  widgets i := by
    rw [Rebuild.changePage, PageTable.page_change h.ascending, ← h.widgets i]
    split
    · next hi => rw [hf, hi]
    · rfl
  count := by
    have hchange := PageTable.length_widgets_change h.ascending index f
    rw [hf] at hchange
    exact (Nat.add_right_cancel hchange).trans h.count
  duplicates := h.duplicates
  refused := h.refused

theorem openPage (h : r.AccountsFor as) (index : Nat) : (r.openPage index).AccountsFor as :=
  h.changePage index fun _ => rfl

theorem notice (h : r.AccountsFor as) {ns : List Notice} (hns : ∀ n ∈ ns, n.isDuplicate = false) :
    (r.notice ns).AccountsFor as where
  ascending := h.ascending
  known := h.known
  widgets := h.widgets
  count := h.count
  duplicates := by
    have hnone : ns.filter Notice.isDuplicate = [] :=
      List.filter_eq_nil_iff.mpr fun n hn => by simp [hns n hn]
    rw [Rebuild.notice, List.filter_append, hnone, List.append_nil, h.duplicates]
  refused := h.refused

/-- Neither the current page nor the state of the body counts. -/
theorem move (h : r.AccountsFor as) (current : Nat) (inBody : Bool) :
    AccountsFor { r with current, inBody } as :=
  ⟨h.ascending, h.known, h.widgets, h.count, h.duplicates, h.refused⟩

variable {a : Arrival}

/-- A page refuses a widget of an id that it has. -/
theorem refuse (h : r.AccountsFor as) (hknown : a.index ∈ r.pages.indices) (htaken : a.isTaken = false)
    (hid : a.widget.id ∈ (r.pages.page a.index).widgets.map Widget.id) :
    (r.notice [a.refusal]).AccountsFor (as ++ [a]) := by
  constructor
  case ascending => exact h.ascending
  case known => exact List.forall_mem_append.mpr ⟨h.known, List.forall_mem_singleton.mpr hknown⟩
  case widgets =>
    intro i
    rw [Arrival.takenAt_append, Arrival.takenAt_refused htaken, List.append_nil]
    exact h.widgets i
  case count =>
    rw [List.filter_append, List.filter_cons_of_neg (by simp [htaken]), List.filter_nil, List.append_nil]
    exact h.count
  case duplicates =>
    rw [Arrival.refusals_append, Arrival.refusals_refused htaken, ← h.duplicates]
    exact List.filter_append _ _
  case refused =>
    obtain ⟨v, hv, hvid⟩ := List.mem_map.mp hid
    have hearlier : v ∈ Arrival.takenAt a.index as := h.widgets a.index ▸ hv
    obtain ⟨b, hb, rfl⟩ := List.mem_map.mp hearlier
    obtain ⟨hbas, hbkept⟩ := List.mem_filter.mp hb
    obtain ⟨hbtaken, hbindex⟩ := Bool.and_eq_true_iff.mp hbkept
    refine List.forall_mem_append.mpr ⟨fun c hc hfalse => ?_, List.forall_mem_singleton.mpr fun _ => ?_⟩
    · obtain ⟨d, hd, hrest⟩ := h.refused c hc hfalse
      exact ⟨d, List.mem_append_left _ hd, hrest⟩
    · exact ⟨b, List.mem_append_left _ hbas, hbtaken, eq_of_beq hbindex, hvid⟩

theorem take (h : r.AccountsFor as) (hknown : a.index ∈ r.pages.indices) (htaken : a.isTaken = true)
    {f : Page → Page}
    (hf : (f (r.pages.page a.index)).widgets = (r.pages.page a.index).widgets ++ [a.widget]) :
    (r.changePage a.index f).AccountsFor (as ++ [a]) := by
  constructor
  case ascending => exact PageTable.ascending_change h.ascending
  case known =>
    have hkept : ∀ i ∈ r.pages.indices, i ∈ (r.changePage a.index f).pages.indices := fun i hi =>
      PageTable.mem_indices_change.mpr (.inr hi)
    exact List.forall_mem_append.mpr ⟨fun b hb => hkept _ (h.known b hb),
      List.forall_mem_singleton.mpr (hkept _ hknown)⟩
  case widgets =>
    intro i
    rw [Rebuild.changePage, PageTable.page_change h.ascending, Arrival.takenAt_append,
      Arrival.takenAt_taken htaken]
    split
    · next hi => rw [hf, h.widgets, hi]
    · rw [h.widgets, List.append_nil]
  case count =>
    have hchange := PageTable.length_widgets_change h.ascending a.index f
    rw [hf, List.length_append, h.count] at hchange
    rw [List.filter_append, List.filter_cons_of_pos htaken, List.filter_nil, List.length_append]
    change (PageTable.widgets (r.pages.change a.index f)).length = _
    simp only [List.length_singleton] at hchange ⊢
    omega
  case duplicates =>
    rw [Arrival.refusals_append, Arrival.refusals_taken htaken, List.append_nil]
    exact h.duplicates
  case refused =>
    refine List.forall_mem_append.mpr ⟨fun b hb hfalse => ?_, List.forall_mem_singleton.mpr fun hfalse => ?_⟩
    · obtain ⟨c, hc, hrest⟩ := h.refused b hb hfalse
      exact ⟨c, List.mem_append_left _ hc, hrest⟩
    · rw [htaken] at hfalse
      cases hfalse

/-- A widget that is added to the current page is taken or refused. -/
theorem add (h : r.AccountsFor as) (hopen : r.current ∈ r.pages.indices) (line : Nat)
    (marker : Option Marker) (w : Widget) : (r.add w line).AccountsFor (as ++ [r.arrival line marker w]) := by
  by_cases hid : w.id ∈ r.currentPage.widgets.map Widget.id
  · have htaken : (r.arrival line marker w).isTaken = false := by
      rw [arrival, Page.widget?_isSome.mpr hid, Bool.not_true]
    rw [Rebuild.add, Page.addWidget_of_mem hid]
    exact h.refuse hopen htaken hid
  · have htaken : (r.arrival line marker w).isTaken = true := by
      have hnone : (r.currentPage.widget? w.id).isSome = false :=
        Bool.eq_false_iff.mpr fun hsome => hid (Page.widget?_isSome.mp hsome)
      rw [arrival, hnone, Bool.not_false]
    rw [Rebuild.add, Page.addWidget_of_not_mem hid]
    exact h.take hopen htaken rfl

end AccountsFor

/-- Opening the current page changes nothing for the widgets that arrive there. -/
theorem currentPage_openPage (h : r.pages.Ascending) : (r.openPage r.current).currentPage = r.currentPage :=
  PageTable.page_enter h r.current

theorem arrival_congr {r' : Rebuild} (hcurrent : r'.current = r.current)
    (hpage : r'.currentPage = r.currentPage) : r'.arrival = r.arrival := by
  funext line marker w
  rw [arrival, arrival, hcurrent, hpage]

namespace AccountsFor

theorem nothing (h : r.AccountsFor as) : r.AccountsFor (as ++ (none : Option Arrival).toList) := by
  rw [Option.toList_none, List.append_nil]
  exact h

theorem addMarked (h : r.AccountsFor as) (m : Marker) (line : Nat) : (r.addMarked g m line).AccountsFor (as ++
    [r.arrival line m (m.widget (g.kind? m.kind) r.currentPage.widgets.length line).1]) := by
  let read := m.widget (g.kind? m.kind) r.currentPage.widgets.length line
  let opened := (r.openPage r.current).notice read.2
  have hopened : opened.AccountsFor as :=
    (h.openPage r.current).notice fun n hn =>
      Notice.isDuplicate_of_isOnMarker (Marker.isOnMarker_widget m r.currentPage.widgets.length line n hn)
  have harrival : opened.arrival = r.arrival := arrival_congr rfl (currentPage_openPage h.ascending)
  have hadded := hopened.add (PageTable.mem_indices_change.mpr (.inl rfl)) line m read.1
  rw [harrival] at hadded
  exact hadded.move _ true

theorem addDrawn (h : r.AccountsFor as) (text : String) (line : Nat) :
    (r.addDrawn text line).AccountsFor (as ++
      ((Widget.recover? text r.currentPage.widgets.length).map (r.arrival line none)).toList) := by
  let opened : Rebuild := { r.openPage r.current with inBody := false }
  have hopened : opened.AccountsFor as := (h.openPage r.current).move _ false
  have hpage : opened.currentPage = r.currentPage := currentPage_openPage h.ascending
  rw [Rebuild.addDrawn, ← hpage]
  split
  · next w hw =>
    have hadded := hopened.add (PageTable.mem_indices_change.mpr (.inl rfl)) line none w
    have harrival : opened.arrival = r.arrival := arrival_congr rfl hpage
    rw [harrival] at hadded
    rw [hw]
    exact hadded
  · next hnone =>
    rw [hnone]
    exact hopened.nothing

/-- One line: what arrives with it is taken or refused, and nothing else happens to the widgets. -/
theorem line (h : r.AccountsFor as) (l : RegionLine) :
    (Rebuild.line g r l).AccountsFor (as ++ (r.arrival? g l).toList) := by
  obtain ⟨region, number, text⟩ := l
  cases region with
  | none => exact h.nothing
  | some region =>
    cases region with
    | retained =>
      change (retainedLine _ r).AccountsFor _
      rw [retainedLine]
      split
      · exact (h.openPage _).nothing
      · exact h.nothing
    | drawing =>
      change (drawingLine g _ r).AccountsFor _
      rw [drawingLine, arrival?_drawing]
      cases Statement.ofLine text with
      | marker m => exact h.addMarked m number
      | pageTest index => exact ((h.openPage index).move index false).nothing
      | interval index seconds =>
        have htimed := h.changePage (f := fun p => { p with refreshSeconds := some seconds }) index fun _ => rfl
        exact htimed.nothing
      | unreadableInterval => exact h.nothing
      | pageName name =>
        have hnamed := h.changePage (f := fun p => { p with name }) r.current fun _ => rfl
        exact hnamed.nothing
      | other inBody =>
        dsimp only
        split
        · exact h.nothing
        · exact h.addDrawn text number

/-- All lines. -/
theorem foldl_line (h : r.AccountsFor as) (ls : List RegionLine) :
    (ls.foldl (Rebuild.line g) r).AccountsFor (as ++ arrivals g r ls) := by
  induction ls generalizing r as with
  | nil => exact (List.append_nil as).symm ▸ h
  | cons l ls ih =>
    rw [arrivals, ← List.append_assoc]
    exact ih (h.line l)

end AccountsFor

theorem accountsFor_run (g : Registry) (text : String) :
    (run g text).AccountsFor (arrivals g {} (RegionLine.ofText text)) :=
  accountsFor_start.foldl_line (RegionLine.ofText text)

/-- Markers without an id, with the same id twice, and with that id on another page. -/
example : (arrivals Registry.builtin {} (RegionLine.ofLines none 1 ["lambda: |-", "  // widget:text x:1",
    "  // widget:text id:a", "  // widget:line id:a", "  if (page == 2) \x7b", "  // widget:line id:a"])).map
      (fun a => (a.line, a.index, a.widget.id, a.isTaken)) =
    [(2, 0, "w_text_0", true), (3, 0, "a", true), (4, 0, "a", false), (6, 2, "a", true)] := by
  decide +kernel

end Rebuild

end Dashboard
