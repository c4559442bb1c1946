import Dashboard.Proofs.Number.Digits
import Dashboard.Proofs.Rebuild.Accounts
/-!
# What becomes of drawn widgets

A drawing without a marker gets an id that ends in the number of widgets which its page has at the line.
The widget at each place of a page therefore has the id that its marker gives or one that ends in the
number of the place, and no such id is ever made twice. A drawing is lost only where a marker before it,
on the same page, has given the very id that the drawing gets.
-/

namespace Dashboard

open Text Number

/-! ## Numbered ids -/

/-- An id that ends in an underscore and a number. -/
def EndsInNumber (n : Nat) (id : String) : Prop := ∃ stem, id = stem ++ "_" ++ natText n

theorem endsInNumber_natText (stem : String) (n : Nat) : EndsInNumber n (stem ++ "_" ++ natText n) :=
  ⟨stem, rfl⟩

theorem toList_numbered (stem : String) (n : Nat) :
    (stem ++ "_" ++ natText n).toList = stem.toList ++ '_' :: digitsOf n := by
  simp only [natText, String.toList_append, String.toList_ofList, List.append_assoc]
  rfl

theorem underscore_not_mem_digitsOf (n : Nat) : '_' ∉ digitsOf n := fun h =>
  absurd (isDigit_of_mem_digitsOf h) (by decide)

/-- Texts of digits that end the same text after an underscore are the same. -/
theorem digitsOf_eq_of_append {n k : Nat} {cs ds : List Char}
    (h : cs ++ '_' :: digitsOf n = ds ++ '_' :: digitsOf k) : digitsOf n = digitsOf k := by
  rcases List.append_eq_append_iff.mp h with ⟨es, -, hrest⟩ | ⟨es, -, hrest⟩
  · cases es with
    | nil => exact (List.cons.inj hrest).2
    | cons e es =>
      have hmem : '_' ∈ digitsOf n := (List.cons.inj hrest).2 ▸ List.mem_append_right es List.mem_cons_self
      exact absurd hmem (underscore_not_mem_digitsOf n)
  · cases es with
    | nil => exact (List.cons.inj hrest).2.symm
    | cons e es =>
      have hmem : '_' ∈ digitsOf k := (List.cons.inj hrest).2 ▸ List.mem_append_right es List.mem_cons_self
      exact absurd hmem (underscore_not_mem_digitsOf k)

/-- An id ends in one number at most. -/
theorem EndsInNumber.unique {n k : Nat} {id : String} (hn : EndsInNumber n id)
    (hk : EndsInNumber k id) : n = k := by
  obtain ⟨stem, rfl⟩ := hn
  obtain ⟨other, hother⟩ := hk
  have hchars := congrArg String.toList hother
  rw [toList_numbered, toList_numbered] at hchars
  have hvalue := congrArg digitsValue (digitsOf_eq_of_append hchars)
  rwa [digitsValue_digitsOf, digitsValue_digitsOf] at hvalue

namespace Drawing

theorem endsInNumber_idStem (d : Drawing) (n : Nat) : EndsInNumber n (d.idStem ++ natText n) := by
  cases d with
  | rectangle filled =>
    cases filled with
    | false => exact endsInNumber_natText "w_rect" n
    | true => exact endsInNumber_natText "w_frect" n
  | circle filled =>
    cases filled with
    | false => exact endsInNumber_natText "w_circle" n
    | true => exact endsInNumber_natText "w_fcircle" n
  | line => exact endsInNumber_natText "w_line" n

end Drawing

theorem Widget.endsInNumber_of_recover? {line : String} {ordinal : Nat} {w : Widget}
    (h : recover? line ordinal = some w) : EndsInNumber ordinal w.id := by
  obtain ⟨d, -, hd⟩ := Option.bind_eq_some_iff.mp h
  obtain ⟨r, -, rfl⟩ := Option.map_eq_some_iff.mp hd
  exact d.endsInNumber_idStem ordinal

namespace Marker

/-- The id that a marker gives its widget. -/
def ownId? (m : Marker) : Option String := (m.get? "id").bind nonBlank?

theorem id_addProps (kind? : Option WidgetKind) (line : Nat) (w : Widget) (fields : List (String × String)) :
    (addProps kind? line w fields).1.id = w.id := by
  obtain ⟨props, hprops⟩ := exists_addProps_eq kind? line w fields
  rw [hprops]

theorem id_widget (m : Marker) (kind? : Option WidgetKind) (ordinal line : Nat) :
    (m.widget kind? ordinal line).1.id = (m.idOr ordinal line).1 :=
  id_addProps kind? line (m.frame (m.idOr ordinal line).1) m.propFields

/-- A marker gives its widget an id, or the widget is numbered. -/
theorem id_widget_cases (m : Marker) (kind? : Option WidgetKind) (ordinal line : Nat) :
    m.ownId? = some (m.widget kind? ordinal line).1.id ∨
      m.ownId? = none ∧ EndsInNumber ordinal (m.widget kind? ordinal line).1.id := by
  rw [id_widget, idOr, ← ownId?]
  cases m.ownId? with
  | some id => exact .inl rfl
  | none => exact .inr ⟨rfl, endsInNumber_natText ("w_" ++ m.kind) ordinal⟩

end Marker

/-! ## The widgets of a page, place by place -/

namespace Arrival

/-- The id that the marker of an arrival gives. -/
def ownId? (a : Arrival) : Option String := a.marker.bind Marker.ownId?

/-- The widget at each place of a page has the id of its marker or one with the number of the place. -/
def NumbersPlaces (as : List Arrival) : Prop :=
  ∀ (i n : Nat) (w : Widget), (takenAt i as)[n]? = some w →
    (∃ a ∈ as, a.index = i ∧ a.ownId? = some w.id) ∨ EndsInNumber n w.id

theorem numbersPlaces_nil : NumbersPlaces [] := fun _ _ _ hw => nomatch hw

/-- A page that takes a widget numbered as it arrives puts it at the place of that number. -/
theorem NumbersPlaces.concat {as : List Arrival} {a : Arrival} (h : NumbersPlaces as)
    (ha : a.ownId? = some a.widget.id ∨ EndsInNumber (takenAt a.index as).length a.widget.id) :
    NumbersPlaces (as ++ [a]) := by
  have hearlier : ∀ (i n : Nat) (w : Widget), (takenAt i as)[n]? = some w →
      (∃ b ∈ as ++ [a], b.index = i ∧ b.ownId? = some w.id) ∨ EndsInNumber n w.id := by
    intro i n w hw
    refine (h i n w hw).imp_left ?_
    rintro ⟨b, hb, hrest⟩
    exact ⟨b, List.mem_append_left _ hb, hrest⟩
  intro i n w hw
  rw [takenAt_append] at hw
  rcases Nat.lt_or_ge n (takenAt i as).length with hlt | hge
  · rw [List.getElem?_append_left hlt] at hw
    exact hearlier i n w hw
  · rw [List.getElem?_append_right hge] at hw
    have hmem := List.mem_of_getElem? hw
    cases htaken : a.isTaken with
    | false =>
      rw [takenAt_refused htaken] at hmem
      exact absurd hmem List.not_mem_nil
    | true =>
      rw [takenAt_taken htaken] at hw
      split at hw
      · next hindex =>
        obtain ⟨hlast, rfl⟩ : n - (takenAt i as).length = 0 ∧ a.widget = w := by
          simpa [List.getElem?_singleton] using hw
        obtain rfl : n = (takenAt i as).length := by omega
        subst hindex
        exact ha.imp_left fun hid => ⟨a, List.mem_append_right as List.mem_cons_self, rfl, hid⟩
      · exact nomatch hw

end Arrival

namespace Rebuild

variable {g : Registry} {r : Rebuild} {as : List Arrival} {l : RegionLine} {a : Arrival}

theorem index_arrival? (h : r.arrival? g l = some a) : a.index = r.current := by
  rw [arrival?] at h
  split at h
  · cases h
    rfl
  · obtain ⟨w, -, rfl⟩ := Option.map_eq_some_iff.mp h
    rfl

theorem recover?_of_drawn? {w : Widget} (h : r.drawn? l = some w) :
    Widget.recover? l.text r.currentPage.widgets.length = some w := by
  rw [drawn?] at h
  split at h
  · split at h
    · cases h
    · exact h
  · cases h

/-- What arrives has the id that its marker gives, or it is numbered by the widgets of its page. -/
theorem id_arrival? (h : r.arrival? g l = some a) : a.ownId? = some a.widget.id ∨
    a.ownId? = none ∧ EndsInNumber r.currentPage.widgets.length a.widget.id := by
  rw [arrival?] at h
  split at h
  · cases h
    exact Marker.id_widget_cases _ _ _ _
  · obtain ⟨w, hw, rfl⟩ := Option.map_eq_some_iff.mp h
    exact .inr ⟨rfl, Widget.endsInNumber_of_recover? (recover?_of_drawn? hw)⟩

theorem arrivals_append (g : Registry) (r : Rebuild) (ls ms : List RegionLine) :
    arrivals g r (ls ++ ms) = arrivals g r ls ++ arrivals g (ls.foldl (line g) r) ms := by
  induction ls generalizing r with
  | nil => rfl
  | cons l ls ih => rw [List.cons_append, arrivals, arrivals, ih, List.append_assoc, List.foldl_cons]

/-- Every arrival comes with some line, in some state of the rebuild. -/
theorem exists_arrival? (r : Rebuild) (ls : List RegionLine) (ha : a ∈ arrivals g r ls) :
    ∃ (r' : Rebuild) (l : RegionLine), r'.arrival? g l = some a := by
  induction ls generalizing r with
  | nil => exact absurd ha List.not_mem_nil
  | cons l ls ih =>
    rcases List.mem_append.mp ha with hfirst | hrest
    · exact ⟨r, l, Option.mem_toList.mp hfirst⟩
    · exact ih _ hrest

/-- An id that a marker gives is that of its widget. -/
theorem id_of_ownId? {ls : List RegionLine} (ha : a ∈ arrivals g r ls) {id : String}
    (hid : a.ownId? = some id) : a.widget.id = id := by
  obtain ⟨r', l, hl⟩ := exists_arrival? r ls ha
  rcases id_arrival? hl with hown | ⟨hnone, -⟩
  · exact Option.some.inj (hown.symm.trans hid)
  · rw [hnone] at hid
    cases hid

namespace AccountsFor

theorem widgets_currentPage (h : r.AccountsFor as) :
    r.currentPage.widgets = Arrival.takenAt r.current as := h.widgets r.current

/-- The page of an index that the rebuild knows has the widgets that it took. -/
theorem exists_page_layout (h : r.AccountsFor as) {i : Nat} (hi : i ∈ r.pages.indices) :
    ∃ q, r.layout.1.pages[r.place i]? = some q ∧ q.widgets = Arrival.takenAt i as := by
  have hpages : r.pages ≠ [] := by
    rintro hnil
    rw [hnil] at hi
    exact List.not_mem_nil hi
  obtain ⟨q, hq, hwidgets⟩ := PageTable.getElem?_placeFrom h.ascending hi []
  rw [layout_of_pages hpages]
  exact ⟨q, hq, hwidgets.trans (h.widgets i)⟩

theorem numbersPlaces_arrival? (h : r.AccountsFor as) (hplaces : Arrival.NumbersPlaces as) (l : RegionLine) :
    Arrival.NumbersPlaces (as ++ (r.arrival? g l).toList) := by
  cases ha : r.arrival? g l with
  | none =>
    rw [Option.toList_none, List.append_nil]
    exact hplaces
  | some a =>
    apply hplaces.concat
    rw [index_arrival? ha, ← h.widgets_currentPage]
    exact (id_arrival? ha).imp_right And.right

theorem numbersPlaces_arrivals (h : r.AccountsFor as) (hplaces : Arrival.NumbersPlaces as)
    (ls : List RegionLine) : Arrival.NumbersPlaces (as ++ arrivals g r ls) := by
  induction ls generalizing r as with
  | nil => exact (List.append_nil as).symm ▸ hplaces
  | cons l ls ih =>
    rw [arrivals, ← List.append_assoc]
    exact ih (h.line l) (h.numbersPlaces_arrival? hplaces l)

end AccountsFor

end Rebuild

/-! ## Drawings that are kept -/

/-- A line of a configuration, with the lines around it. -/
structure PlacedLine (text : String) where
  before : List RegionLine
  line : RegionLine
  after : List RegionLine
  lines_eq : RegionLine.ofText text = before ++ line :: after

namespace PlacedLine

variable {text : String}

def ofPlace (n : Nat) (h : n < (RegionLine.ofText text).length) : PlacedLine text where
  before := (RegionLine.ofText text).take n
  line := (RegionLine.ofText text)[n]
  after := (RegionLine.ofText text).drop (n + 1)
  lines_eq := (List.take_append_drop n _).symm.trans (congrArg _ (List.drop_eq_getElem_cons h))

/-- The rebuild as the line finds it. -/
def state (g : Registry) (p : PlacedLine text) : Rebuild := p.before.foldl (Rebuild.line g) {}

theorem run_eq (g : Registry) (p : PlacedLine text) :
    Rebuild.run g text = p.after.foldl (Rebuild.line g) (Rebuild.line g (p.state g) p.line) := by
  rw [Rebuild.run, p.lines_eq, List.foldl_append, List.foldl_cons]
  rfl

theorem accountsFor_state (g : Registry) (p : PlacedLine text) :
    (p.state g).AccountsFor (Rebuild.arrivals g {} p.before) :=
  Rebuild.accountsFor_start.foldl_line p.before

end PlacedLine

/-- A line of a configuration that draws a widget without a marker. -/
structure DrawnLine (g : Registry) (text : String) extends PlacedLine text where
  widget : Widget
  drawn : (toPlacedLine.state g).drawn? line = some widget

namespace DrawnLine

variable {g : Registry} {text : String} (d : DrawnLine g text)

def state : Rebuild := d.toPlacedLine.state g

/-- The number of widgets that the page has at the line. -/
def ordinal : Nat := d.state.currentPage.widgets.length

/-- The place in the rebuilt layout of the page that is open at the line. -/
def place : Nat := (Rebuild.run g text).place d.state.current

/-- The page has the widget of the line, right after those that it had before. -/
def IsKept : Prop :=
  ∃ p, (Layout.ofConfiguration g text).1.pages[d.place]? = some p ∧ p.widgets[d.ordinal]? = some d.widget

/-- A marker before the line, on the same page, gives the id that the drawing gets. -/
def IsNamedBefore : Prop :=
  ∃ m ∈ MarkedLine.ofLines 0 d.before, m.index = d.state.current ∧ m.marker.ownId? = some d.widget.id

def arrival : Arrival := d.state.arrival d.line.number none d.widget

/-- What has arrived before the line. -/
def earlier : List Arrival := Rebuild.arrivals g {} d.before

/-- What arrives after the line. -/
def later : List Arrival := Rebuild.arrivals g (Rebuild.line g d.state d.line) d.after

instance : Decidable d.IsNamedBefore := inferInstanceAs (Decidable (∃ m ∈ _, _))

theorem arrival?_line : d.state.arrival? g d.line = some d.arrival := by
  have hdrawn : d.state.drawn? d.line = some d.widget := d.drawn
  have hmarker : d.line.marker? = none := by
    cases hm : d.line.marker? with
    | none => rfl
    | some m =>
      rw [Rebuild.drawn?_of_marker? hm] at hdrawn
      cases hdrawn
  rw [Rebuild.arrival?, hmarker, hdrawn]
  rfl

theorem arrivals_eq :
    Rebuild.arrivals g {} (RegionLine.ofText text) = d.earlier ++ d.arrival :: d.later := by
  rw [d.lines_eq, Rebuild.arrivals_append, Rebuild.arrivals]
  change d.earlier ++ ((d.state.arrival? g d.line).toList ++ d.later) = _
  rw [d.arrival?_line]
  rfl

theorem accountsFor_state : d.state.AccountsFor d.earlier := d.toPlacedLine.accountsFor_state g

theorem accountsFor_run : (Rebuild.run g text).AccountsFor (d.earlier ++ d.arrival :: d.later) :=
  d.arrivals_eq ▸ Rebuild.accountsFor_run g text

theorem endsInNumber_widget : EndsInNumber d.ordinal d.widget.id :=
  Widget.endsInNumber_of_recover? (Rebuild.recover?_of_drawn? d.drawn)

theorem marked_earlier : d.earlier.filterMap Arrival.marked? = MarkedLine.ofLines 0 d.before :=
  Rebuild.marked_arrivals g {} d.before

/-- The markers before the line give an id if one of the earlier arrivals has it from its marker. -/
theorem isNamedBefore_iff : d.IsNamedBefore ↔
    ∃ a ∈ d.earlier, a.index = d.state.current ∧ a.ownId? = some d.widget.id := by
  rw [IsNamedBefore, ← d.marked_earlier]
  constructor
  · rintro ⟨m, hm, hindex, hid⟩
    obtain ⟨a, ha, hmarked⟩ := List.mem_filterMap.mp hm
    obtain ⟨marker, hmarker, rfl⟩ := Option.map_eq_some_iff.mp hmarked
    exact ⟨a, ha, hindex, Option.bind_eq_some_iff.mpr ⟨marker, hmarker, hid⟩⟩
  · rintro ⟨a, ha, hindex, hid⟩
    obtain ⟨marker, hmarker, hown⟩ := Option.bind_eq_some_iff.mp hid
    have hmarked : a.marked? = some ⟨a.line, marker, a.index⟩ := by rw [Arrival.marked?, hmarker]; rfl
    exact ⟨_, List.mem_filterMap.mpr ⟨a, ha, hmarked⟩, hindex, hown⟩

/-- The page has the id of a drawing only if a marker has given it: the numbers of all other ids on the
page are less. -/
theorem isNamedBefore_of_mem (h : d.widget.id ∈ d.state.currentPage.widgets.map Widget.id) :
    d.IsNamedBefore := by
  have hstate := d.accountsFor_state
  have hplaces : Arrival.NumbersPlaces d.earlier :=
    Rebuild.accountsFor_start.numbersPlaces_arrivals Arrival.numbersPlaces_nil d.before
  obtain ⟨v, hv, hvid⟩ := List.mem_map.mp h
  obtain ⟨n, hn, hget⟩ := List.mem_iff_getElem.mp hv
  have htaken : (Arrival.takenAt d.state.current d.earlier)[n]? = some v := by
    rw [← hstate.widgets_currentPage, List.getElem?_eq_getElem hn, hget]
  rw [isNamedBefore_iff, ← hvid]
  refine (hplaces _ n v htaken).resolve_right fun hnumber => ?_
  rw [hvid] at hnumber
  exact absurd (hnumber.unique d.endsInNumber_widget) (Nat.ne_of_lt hn)

theorem mem_of_isNamedBefore (h : d.IsNamedBefore) :
    d.widget.id ∈ d.state.currentPage.widgets.map Widget.id := by
  have hstate := d.accountsFor_state
  obtain ⟨a, ha, hindex, hown⟩ := d.isNamedBefore_iff.mp h
  have hid : a.widget.id = d.widget.id := Rebuild.id_of_ownId? ha hown
  -- if the page refused the marker, a widget of that id was there before it
  obtain ⟨b, hb, htaken, hbindex, hbid⟩ :
      ∃ b ∈ d.earlier, b.isTaken = true ∧ b.index = a.index ∧ b.widget.id = a.widget.id := by
    cases htaken : a.isTaken with
    | true => exact ⟨a, ha, htaken, rfl, rfl⟩
    | false => exact hstate.refused a ha htaken
  have hkept : b.widget ∈ Arrival.takenAt d.state.current d.earlier :=
    List.mem_map_of_mem (List.mem_filter.mpr ⟨hb, by rw [htaken, hbindex, hindex, beq_self_eq_true]; rfl⟩)
  rw [hstate.widgets_currentPage]
  exact List.mem_map.mpr ⟨b.widget, hkept, hbid.trans hid⟩

theorem isTaken_arrival : d.arrival.isTaken = true ↔ ¬ d.IsNamedBefore := by
  have hmem : (d.state.currentPage.widget? d.widget.id).isSome = true ↔ d.IsNamedBefore :=
    Page.widget?_isSome.trans ⟨d.isNamedBefore_of_mem, d.mem_of_isNamedBefore⟩
  rw [← hmem, arrival, Rebuild.arrival]
  simp

theorem place_layout : d.place = d.state.current ∨
    .moved d.state.current d.place ∈ (Layout.ofConfiguration g text).2 :=
  (d.accountsFor_run.place_layout (List.mem_append_right _ List.mem_cons_self)).2

/-- The page of the line has, behind the earlier widgets, that of the line if it takes it. -/
theorem exists_page : ∃ p, (Layout.ofConfiguration g text).1.pages[d.place]? = some p ∧
    p.widgets = d.state.currentPage.widgets ++
      (Arrival.takenAt d.state.current [d.arrival] ++ Arrival.takenAt d.state.current d.later) := by
  have hrun := d.accountsFor_run
  obtain ⟨p, hp, hwidgets⟩ := hrun.exists_page_layout
    (hrun.known d.arrival (List.mem_append_right _ List.mem_cons_self))
  refine ⟨p, hp, hwidgets.trans ?_⟩
  rw [← List.singleton_append, Arrival.takenAt_append, Arrival.takenAt_append,
    d.accountsFor_state.widgets_currentPage]
  rfl

theorem isKept_of_isTaken (h : d.arrival.isTaken = true) : d.IsKept := by
  obtain ⟨p, hp, hwidgets⟩ := d.exists_page
  have hlast : Arrival.takenAt d.state.current [d.arrival] = [d.widget] :=
    (Arrival.takenAt_taken h _).trans (if_pos rfl)
  refine ⟨p, hp, ?_⟩
  rw [hwidgets, hlast, ordinal, List.getElem?_append_right (Nat.le_refl _), Nat.sub_self]
  rfl

/-- The ids of a page are distinct, so that no later widget is the one that was refused. -/
theorem not_isKept_of_isNamedBefore (h : d.IsNamedBefore) : ¬ d.IsKept := by
  rintro ⟨q, hq, hget⟩
  obtain ⟨p, hp, hwidgets⟩ := d.exists_page
  obtain rfl : p = q := Option.some.inj (hp.symm.trans hq)
  have hnodup : (p.widgets.map Widget.id).Nodup :=
    Layout.forall_pages_ofConfiguration g.keeps_nodup text p (List.mem_of_getElem? hp)
  rw [hwidgets, ordinal, List.getElem?_append_right (Nat.le_refl _), Nat.sub_self] at hget
  rw [hwidgets, List.map_append] at hnodup
  exact (List.nodup_append.mp hnodup).2.2 _ (d.mem_of_isNamedBefore h) _
    (List.mem_map_of_mem (List.mem_of_getElem? hget)) rfl

theorem duplicate_of_isNamedBefore (h : d.IsNamedBefore) :
    .duplicate d.line.number d.widget.id ∈ (Layout.ofConfiguration g text).2 := by
  have hrefused : d.arrival.isTaken = false :=
    Bool.eq_false_iff.mpr fun htaken => d.isTaken_arrival.mp htaken h
  have hmem : d.arrival.refusal ∈ Arrival.refusals (d.earlier ++ d.arrival :: d.later) :=
    List.mem_map_of_mem (List.mem_filter.mpr
      ⟨List.mem_append_right _ List.mem_cons_self, by rw [hrefused]; rfl⟩)
  rw [← d.accountsFor_run.duplicates_layout] at hmem
  exact (List.mem_filter.mp hmem).1

/-- A drawing without a marker becomes a widget of the page that is open at its line, right after those
that the page has there, unless a marker before it on that page gives the id that it gets. In that case
a notice on the line says so. -/
theorem isKept_iff : (d.place = d.state.current ∨
      .moved d.state.current d.place ∈ (Layout.ofConfiguration g text).2) ∧
    (d.IsKept ↔ ¬ d.IsNamedBefore) ∧
    (d.IsNamedBefore → .duplicate d.line.number d.widget.id ∈ (Layout.ofConfiguration g text).2) := by
  refine ⟨d.place_layout, ⟨fun hkept hnamed => ?_, fun hfree => ?_⟩, d.duplicate_of_isNamedBefore⟩
  · exact d.not_isKept_of_isNamedBefore hnamed hkept
  · exact d.isKept_of_isTaken (d.isTaken_arrival.mpr hfree)

def ofPlaced (p : PlacedLine text) (h : ((p.state g).drawn? p.line).isSome) : DrawnLine g text :=
  { p with
    widget := Option.get _ h
    drawn := (Option.some_get h).symm }

/-- A marker that gives an id, and after it a rectangle without a marker. -/
def rectangleAfter (id : String) : String :=
  "lambda: |-\n  // widget:text id:" ++ id ++ "\n  // free\n  it.rectangle(10, 20, 30, 40);\n"

theorem isKept_iff_titled : ∃ d : DrawnLine .builtin (rectangleAfter "title"),
    d.widget.id = "w_rect_1" ∧ d.IsKept := by
  let d : DrawnLine .builtin (rectangleAfter "title") :=
    ofPlaced (.ofPlace 3 (by decide +kernel)) (by decide +kernel)
  have hfree : ¬ d.IsNamedBefore := by decide +kernel
  exact ⟨d, by decide +kernel, d.isKept_iff.2.1.mpr hfree⟩

/-- A marker may give the id that the rectangle gets. -/
theorem not_forall_isKept :
    ¬ ∀ (text : String) (d : DrawnLine .builtin text), d.IsKept := by
  intro h
  let d : DrawnLine .builtin (rectangleAfter "w_rect_1") :=
    ofPlaced (.ofPlace 3 (by decide +kernel)) (by decide +kernel)
  have hnamed : d.IsNamedBefore := by decide +kernel
  exact d.not_isKept_of_isNamedBefore hnamed (h _ d)

end DrawnLine

end Dashboard
