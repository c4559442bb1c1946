import Mathlib.Data.List.Nodup
import Dashboard.Proofs.Rebuild.Arrivals
import Dashboard.Proofs.Rebuild.Preserved
import Dashboard.Proofs.Rebuild.Steps
/-!
# Nothing is lost in a rebuild, and nothing is invented

Every marker in the drawing code of a configuration, and every shape that it draws besides, becomes one
widget of the page that is open at its line, or one notice that the page has a widget of that id. These
are all widgets of the rebuilt layout and all notices of that kind. Pages that are moved together keep
their widgets apart.
-/

namespace Dashboard

open Text

/-! ## Which lines bring widgets -/

namespace Rebuild

variable {g : Registry} {r : Rebuild}

theorem current_line (g : Registry) (r : Rebuild) (l : RegionLine) :
    (line g r l).current = l.openAfter r.current := by
  obtain ⟨region, number, text⟩ := l
  cases region with
  | none => rfl
  | some region =>
    cases region with
    | retained =>
      change (retainedLine _ r).current = r.current
      rw [retainedLine]
      split <;> rfl
    | drawing =>
      change (drawingLine g _ r).current = _
      rw [drawingLine, RegionLine.openAfter]
      dsimp only
      cases Statement.ofLine text with
      | marker m => exact current_addMarked m number
      | other inBody =>
        dsimp only
        split
        · rfl
        · rw [addDrawn]
          split
          · exact current_add _ number
          · rfl
      | _ => rfl

/-- The markers among the arrivals are those of the lines, each at the page that is open there. -/
theorem marked_arrivals (g : Registry) (r : Rebuild) (ls : List RegionLine) :
    (arrivals g r ls).filterMap Arrival.marked? = MarkedLine.ofLines r.current ls := by
  induction ls generalizing r with
  | nil => rfl
  | cons l ls ih =>
    have hfirst : (r.arrival? g l).toList.filterMap Arrival.marked? =
        (l.marker?.map fun m => ⟨l.number, m, r.current⟩).toList := by
      rw [arrival?]
      cases l.marker? with
      | some m => rfl
      | none => cases r.drawn? l <;> rfl
    rw [arrivals, List.filterMap_append, hfirst, ih, current_line]
    rfl

/-- A line of a marker draws nothing besides. -/
theorem drawn?_of_marker? {l : RegionLine} {m : Marker} (h : l.marker? = some m) : r.drawn? l = none := by
  obtain ⟨region, number, text⟩ := l
  obtain ⟨rfl, hm⟩ : region = some .drawing ∧ Marker.ofLine? text = some m := by
    simpa [RegionLine.marker?] using h
  have hstatement := Statement.marker?_ofLine text
  rw [hm] at hstatement
  rw [drawn?]
  dsimp only
  cases hs : Statement.ofLine text with
  | other inBody =>
    rw [hs] at hstatement
    cases hstatement
  | _ => rfl

/-- The other arrivals are the widgets that lines draw without a marker. -/
theorem drawn_arrivals (g : Registry) (r : Rebuild) (ls : List RegionLine) :
    ((arrivals g r ls).filter fun a => a.marker.isNone).map (fun a => (a.line, a.widget)) =
      drawnWidgets g r ls := by
  induction ls generalizing r with
  | nil => rfl
  | cons l ls ih =>
    have hfirst : ((r.arrival? g l).toList.filter fun a => a.marker.isNone).map (fun a => (a.line, a.widget)) =
        ((r.drawn? l).map fun w => (l.number, w)).toList := by
      rw [arrival?]
      cases hm : l.marker? with
      | some m =>
        rw [drawn?_of_marker? hm]
        rfl
      | none => cases r.drawn? l <;> rfl
    rw [arrivals, List.filter_append, List.map_append, hfirst, ih]
    rfl

/-- A marker brings a widget of its own kind. -/
theorem kind_arrivals (g : Registry) (r : Rebuild) (ls : List RegionLine) :
    ∀ a ∈ arrivals g r ls, ∀ m ∈ a.marker, a.widget.kind = m.kind := by
  induction ls generalizing r with
  | nil => exact fun _ ha => absurd ha List.not_mem_nil
  | cons l ls ih =>
    refine List.forall_mem_append.mpr ⟨fun a ha => ?_, ih _⟩
    rw [Option.mem_toList, arrival?] at ha
    split at ha
    · cases ha
      rintro m ⟨⟩
      exact Marker.kind_widget _ _ _
    · obtain ⟨w, -, rfl⟩ := Option.map_eq_some_iff.mp ha
      exact fun m hm => absurd hm (Option.not_mem_none m)

end Rebuild

/-! ## The rebuilt layout -/

/-- A list of arrivals that accounts for a rebuilt layout and its notices.

It has every marker in the lines once, with the page that is open there and a widget of the kind of the
marker, and besides once every widget that a line draws. The page of each index has a place of its own,
which is the index unless a notice says that the page was moved. The widgets of the page at a place are
the arrivals that it took, and there is a notice for each arrival that was refused: then the page had
taken a widget of that id. -/
structure Layout.IsAccount (g : Registry) (lines : List RegionLine) (back : Layout) (notices : List Notice)
    (as : List Arrival) (place : Nat → Nat) : Prop where
  marked : as.filterMap Arrival.marked? = MarkedLine.ofLines 0 lines
  kinds : ∀ a ∈ as, ∀ m ∈ a.marker, a.widget.kind = m.kind
  drawn : (as.filter fun a => a.marker.isNone).map (fun a => (a.line, a.widget)) =
    Rebuild.drawnWidgets g {} lines
  places : ∀ a ∈ as, place a.index < back.pages.length
  moved : ∀ a ∈ as, place a.index = a.index ∨ .moved a.index (place a.index) ∈ notices
  apart : ∀ a ∈ as, ∀ b ∈ as, a.index < b.index → place a.index < place b.index
  widgets : ∀ (i : Nat) (q : Page), back.pages[i]? = some q →
    q.widgets = (as.filter fun a => a.isTaken && place a.index == i).map Arrival.widget
  duplicates : notices.filter Notice.isDuplicate = Arrival.refusals as
  refused : ∀ a ∈ as, a.isTaken = false →
    ∃ b ∈ as, b.isTaken = true ∧ b.index = a.index ∧ b.widget.id = a.widget.id

namespace Rebuild

/-- The place of the page of an index. -/
def place (r : Rebuild) (index : Nat) : Nat := PageTable.placeFrom 0 index r.pages

variable {r : Rebuild} {as : List Arrival}

theorem layout_of_pages (h : r.pages ≠ []) : r.layout =
    ({ pages := (PageTable.pagesFrom 0 r.pages).1 }, r.notices ++ (PageTable.pagesFrom 0 r.pages).2) := by
  have hempty : r.pages.isEmpty = false := Bool.eq_false_iff.mpr fun he => h (List.isEmpty_iff.mp he)
  rw [layout, hempty]
  rfl

theorem pages_layout_ne_nil (r : Rebuild) : r.layout.1.pages ≠ [] := by
  cases hpages : r.pages with
  | nil =>
    rw [layout, hpages]
    exact List.cons_ne_nil _ _
  | cons e t =>
    have hcons : r.pages ≠ [] := hpages ▸ List.cons_ne_nil e t
    obtain ⟨gap, q, notices, -, heq⟩ := PageTable.pagesFrom_cons 0 e.1 e.2 t
    rw [layout_of_pages hcons, hpages, heq]
    exact List.append_ne_nil_of_right_ne_nil _ (List.cons_ne_nil _ _)

namespace AccountsFor

/-- Without pages nothing has arrived yet. -/
theorem eq_nil (h : r.AccountsFor as) (hpages : r.pages = []) : as = [] := by
  refine List.eq_nil_iff_forall_not_mem.mpr fun a ha => ?_
  have hknown := h.known a ha
  rw [hpages] at hknown
  exact List.not_mem_nil hknown

theorem duplicates_layout (h : r.AccountsFor as) :
    r.layout.2.filter Notice.isDuplicate = Arrival.refusals as := by
  by_cases hpages : r.pages = []
  · rw [layout, hpages]
    exact h.duplicates
  · have hnone : (PageTable.pagesFrom 0 r.pages).2.filter Notice.isDuplicate = [] :=
      List.filter_eq_nil_iff.mpr fun n hn => by simp [PageTable.isDuplicate_pagesFrom 0 r.pages n hn]
    rw [layout_of_pages hpages, List.filter_append, hnone, List.append_nil, h.duplicates]

theorem length_widgets_layout (h : r.AccountsFor as) :
    r.layout.1.widgets.length = (as.filter Arrival.isTaken).length := by
  by_cases hpages : r.pages = []
  · rw [h.eq_nil hpages, layout, hpages]
    rfl
  · rw [layout_of_pages hpages, ← h.count]
    exact congrArg List.length (PageTable.flatMap_pagesFrom 0 r.pages)

theorem place_lt (h : r.AccountsFor as) {i j : Nat} (hi : i ∈ r.pages.indices) (hj : j ∈ r.pages.indices)
    (hij : i < j) : r.place i < r.place j := PageTable.placeFrom_lt h.ascending hi hj hij 0

theorem place_inj (h : r.AccountsFor as) {i j : Nat} (hi : i ∈ r.pages.indices) (hj : j ∈ r.pages.indices)
    (hij : r.place i = r.place j) : i = j := by
  rcases Nat.lt_trichotomy i j with hlt | heq | hgt
  · exact absurd hij (Nat.ne_of_lt (h.place_lt hi hj hlt))
  · exact heq
  · exact absurd hij (Nat.ne_of_gt (h.place_lt hj hi hgt))

theorem widgets_pagesFrom (h : r.AccountsFor as) {i : Nat} {q : Page}
    (hq : (PageTable.pagesFrom 0 r.pages).1[i]? = some q) :
    q.widgets = (as.filter fun a => a.isTaken && r.place a.index == i).map Arrival.widget := by
  by_cases htable : ∃ index ∈ r.pages.indices, r.place index = i
  · obtain ⟨index, hindex, rfl⟩ := htable
    obtain ⟨q', hq', hwidgets⟩ := PageTable.getElem?_placeFrom h.ascending hindex []
    obtain rfl : q = q' := Option.some.inj (hq.symm.trans hq')
    rw [hwidgets, h.widgets, Arrival.takenAt]
    refine congrArg _ (List.filter_congr fun a ha => congrArg _ (Bool.eq_iff_iff.mpr ?_))
    rw [beq_iff_eq, beq_iff_eq]
    exact ⟨fun heq => heq ▸ rfl, h.place_inj (h.known a ha) hindex⟩
  · have hfree : ∀ index ∈ r.pages.indices, r.place index ≠ i :=
      fun index hindex hi => htable ⟨index, hindex, hi⟩
    have hempty : q.widgets = [] :=
      PageTable.widgets_of_forall_placeFrom_ne [] (Nat.zero_le i) hq h.ascending hfree
    have hnone : (as.filter fun a => a.isTaken && r.place a.index == i) = [] :=
      List.filter_eq_nil_iff.mpr fun a ha => by simp [hfree a.index (h.known a ha)]
    rw [hempty, hnone]
    rfl

theorem widgets_layout (h : r.AccountsFor as) {i : Nat} {q : Page} (hq : r.layout.1.pages[i]? = some q) :
    q.widgets = (as.filter fun a => a.isTaken && r.place a.index == i).map Arrival.widget := by
  by_cases hpages : r.pages = []
  · rw [layout, hpages] at hq
    rw [h.eq_nil hpages]
    obtain rfl := List.mem_singleton.mp (List.mem_of_getElem? hq)
    rfl
  · rw [layout_of_pages hpages] at hq
    exact h.widgets_pagesFrom hq

/-- The page of an arrival is one of the layout, and it stands at its index or a notice says where. -/
theorem place_layout (h : r.AccountsFor as) {a : Arrival} (ha : a ∈ as) :
    r.place a.index < r.layout.1.pages.length ∧
      (r.place a.index = a.index ∨ .moved a.index (r.place a.index) ∈ r.layout.2) := by
  have hpages : r.pages ≠ [] := fun hnil => List.ne_nil_of_mem ha (h.eq_nil hnil)
  obtain ⟨q, hq, -⟩ := PageTable.getElem?_placeFrom h.ascending (h.known a ha) []
  have hzero : ∀ i ∈ r.pages.indices, 0 ≤ i := fun i _ => Nat.zero_le i
  have hmoved := PageTable.placeFrom_moved h.ascending hzero (h.known a ha)
  rw [layout_of_pages hpages]
  exact ⟨(List.getElem?_eq_some_iff.mp hq).1, hmoved.imp_right (List.mem_append_right _)⟩

end AccountsFor

end Rebuild

variable {g : Registry}

theorem Page.eq_of_addWidget {p q : Page} {w : Widget} (h : p.addWidget w = .ok q) :
    w.id ∉ p.widgets.map Widget.id ∧ q = { p with widgets := p.widgets ++ [w] } := by
  by_cases hid : w.id ∈ p.widgets.map Widget.id
  · rw [addWidget_of_mem hid] at h
    cases h
  · rw [addWidget_of_not_mem hid] at h
    exact ⟨hid, (Except.ok.inj h).symm⟩

theorem Page.nodup_addWidget {p q : Page} {w : Widget} (hp : (p.widgets.map Widget.id).Nodup)
    (hq : p.addWidget w = .ok q) : (q.widgets.map Widget.id).Nodup := by
  obtain ⟨hid, rfl⟩ := eq_of_addWidget hq
  rw [List.map_append]
  exact List.Nodup.append hp (List.nodup_singleton w.id) (List.disjoint_singleton.mpr hid)

theorem Registry.keeps_nodup (g : Registry) : g.Keeps fun p => (p.widgets.map Widget.id).Nodup where
  made := fun _ => List.nodup_nil
  named := fun _ _ hp => hp
  timed := fun _ _ hp => hp
  moved := fun _ _ _ hp => hp
  marked := fun _ _ _ _ _ hp hq => Page.nodup_addWidget hp hq
  drawn := fun _ _ _ _ _ hp _ hq => Page.nodup_addWidget hp hq

theorem Layout.isAccount_ofConfiguration (g : Registry) (text : String) :
    Layout.IsAccount g (RegionLine.ofText text) (Layout.ofConfiguration g text).1
      (Layout.ofConfiguration g text).2 (Rebuild.arrivals g {} (RegionLine.ofText text))
      (Rebuild.run g text).place := by
  have h := Rebuild.accountsFor_run g text
  constructor
  case marked => exact Rebuild.marked_arrivals g {} _
  case kinds => exact Rebuild.kind_arrivals g {} _
  case drawn => exact Rebuild.drawn_arrivals g {} _
  case places => exact fun a ha => (h.place_layout ha).1
  case moved => exact fun a ha => (h.place_layout ha).2
  case apart => exact fun a ha b hb hab => h.place_lt (h.known a ha) (h.known b hb) hab
  case widgets => exact fun i q hq => h.widgets_layout hq
  case duplicates => exact h.duplicates_layout
  case refused => exact h.refused

namespace Layout.IsAccount

variable {lines : List RegionLine} {back : Layout} {notices : List Notice} {as : List Arrival}
  {place : Nat → Nat}

/-- Every arrival is a marker or a drawing. -/
theorem length_arrivals (h : IsAccount g lines back notices as place) :
    as.length = (MarkedLine.ofLines 0 lines).length + (Rebuild.drawnWidgets g {} lines).length := by
  rw [← h.marked, ← h.drawn, List.length_map, List.length_filterMap_eq_countP,
    List.length_eq_countP_add_countP fun a : Arrival => a.marked?.isSome, ← List.countP_eq_length_filter]
  refine congrArg _ (List.countP_congr fun a _ => ?_)
  simp [Arrival.marked?]

end Layout.IsAccount

/-- A rebuild neither loses nor invents widgets, whatever the text is. The rebuilt layout has a page, and
the ids on every page are distinct. Every marker in the drawing code is accounted for, by one widget of
its kind on the page that is open at its line or by one notice on a duplicate id. Together with the
widgets that are drawn without a marker, these are all widgets and all such notices. -/
theorem Layout.ofConfiguration_accounts (g : Registry) (text : String) :
    let lines := RegionLine.ofText text
    let back := (Layout.ofConfiguration g text).1
    let notices := (Layout.ofConfiguration g text).2
    back.pages ≠ [] ∧ (∀ p ∈ back.pages, (p.widgets.map Widget.id).Nodup) ∧
      (∃ as place, IsAccount g lines back notices as place) ∧
      back.widgets.length + (notices.filter Notice.isDuplicate).length =
        (MarkedLine.ofLines 0 lines).length + (Rebuild.drawnWidgets g {} lines).length := by
  have haccount := isAccount_ofConfiguration g text
  have hcount : (ofConfiguration g text).1.widgets.length +
      ((ofConfiguration g text).2.filter Notice.isDuplicate).length =
        (Rebuild.arrivals g {} (RegionLine.ofText text)).length := by
    rw [haccount.duplicates, Arrival.refusals, List.length_map, ofConfiguration,
      (Rebuild.accountsFor_run g text).length_widgets_layout]
    exact (List.length_eq_length_filter_add Arrival.isTaken).symm
  exact ⟨Rebuild.pages_layout_ne_nil _, forall_pages_ofConfiguration g.keeps_nodup text, ⟨_, _, haccount⟩,
    hcount.trans haccount.length_arrivals⟩

end Dashboard
