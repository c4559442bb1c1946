import Dashboard.Proofs.Rebuild.Drawings
import Dashboard.Proofs.Table
/-!
# What a rebuild says about unreadable fields

The notices on the line of a marker are those of reading the marker and, if its page has a widget of
that id, one on that. Among them is a notice on every property whose text is none of its kind. The
numbers of the box and of the condition are read another way: a field there that is no number is passed
over in silence, as if the marker had none.
-/

namespace Dashboard

open Text Number

/-! ## Notices by line -/

namespace Notice

/-- The line that a notice is on. -/
def line? : Notice → Option Nat
  | .withoutId line _ => some line
  | .unknownKind line _ => some line
  | .unreadable line _ _ _ => some line
  | .duplicate line _ => some line
  | .moved _ _ => none

/-- The notices on one line. -/
def onLine (line : Nat) (ns : List Notice) : List Notice := ns.filter fun n => n.line? == some line

theorem onLine_append (line : Nat) (ns ms : List Notice) :
    onLine line (ns ++ ms) = onLine line ns ++ onLine line ms := List.filter_append ns ms

theorem onLine_eq_self {line : Nat} {ns : List Notice} (h : ∀ n ∈ ns, n.line? = some line) :
    onLine line ns = ns :=
  List.filter_eq_self.mpr fun n hn => by rw [h n hn, beq_self_eq_true]

theorem onLine_eq_nil {line : Nat} {ns : List Notice} (h : ∀ n ∈ ns, n.line? ≠ some line) :
    onLine line ns = [] :=
  List.filter_eq_nil_iff.mpr fun n hn hline => h n hn (eq_of_beq hline)

end Notice

namespace PageTable

theorem line?_pagesFrom (place : Nat) (t : PageTable) : ∀ n ∈ (pagesFrom place t).2, n.line? = none := by
  induction t generalizing place with
  | nil => exact fun _ hn => absurd hn List.not_mem_nil
  | cons e t ih =>
    obtain ⟨index, p⟩ := e
    rw [pagesFrom]
    split
    · exact List.forall_mem_cons.mpr ⟨rfl, ih _⟩
    · exact ih _

end PageTable

theorem Rebuild.onLine_layout (r : Rebuild) (line : Nat) :
    Notice.onLine line r.layout.2 = Notice.onLine line r.notices := by
  rw [layout]
  split
  · rfl
  · have hnone : Notice.onLine line (PageTable.pagesFrom 0 r.pages).2 = [] :=
      Notice.onLine_eq_nil fun n hn hline => by
        rw [PageTable.line?_pagesFrom 0 r.pages n hn] at hline
        cases hline
    rw [Notice.onLine_append, hnone, List.append_nil]

namespace Marker

variable {kind? : Option WidgetKind}

theorem line?_widget (m : Marker) (ordinal line : Nat) :
    ∀ n ∈ (m.widget kind? ordinal line).2, n.line? = some line := by
  intro n hn
  rcases mem_widget_cases hn with ⟨_, rfl⟩ | rfl | ⟨_, _, _, rfl⟩
  all_goals rfl

end Marker

namespace Rebuild

variable {g : Registry} {r : Rebuild}

/-- The notice on a widget that the current page refuses. -/
def refusal (r : Rebuild) (w : Widget) (line : Nat) : List Notice :=
  if (r.currentPage.widget? w.id).isSome then [.duplicate line w.id] else []

theorem line?_refusal (r : Rebuild) (w : Widget) (line : Nat) :
    ∀ n ∈ r.refusal w line, n.line? = some line := by
  rw [refusal]
  split
  · exact List.forall_mem_singleton.mpr rfl
  · exact fun _ hn => absurd hn List.not_mem_nil

theorem notices_add (r : Rebuild) (w : Widget) (line : Nat) :
    (r.add w line).notices = r.notices ++ r.refusal w line := by
  by_cases hid : w.id ∈ r.currentPage.widgets.map Widget.id
  · rw [add, Page.addWidget_of_mem hid, refusal, if_pos (Page.widget?_isSome.mpr hid)]
    rfl
  · rw [add, Page.addWidget_of_not_mem hid, refusal, if_neg (mt Page.widget?_isSome.mp hid), List.append_nil]
    rfl

/-- A marker brings the notices of its reading, and that on a page which refuses its widget. -/
theorem notices_addMarked (h : r.pages.Ascending) (m : Marker) (line : Nat) :
    let read := m.widget (g.kind? m.kind) r.currentPage.widgets.length line
    (r.addMarked g m line).notices = r.notices ++ (read.2 ++ r.refusal read.1 line) := by
  intro read
  have hpage : ((r.openPage r.current).notice read.2).currentPage = r.currentPage := currentPage_openPage h
  have hadded := notices_add ((r.openPage r.current).notice read.2) read.1 line
  rw [refusal, hpage, ← refusal] at hadded
  exact hadded.trans (List.append_assoc _ _ _)

/-- A line adds notices that are on it. -/
theorem exists_notices_line (h : r.pages.Ascending) (l : RegionLine) : ∃ ns,
    (line g r l).notices = r.notices ++ ns ∧ ∀ n ∈ ns, n.line? = some l.number := by
  have hsilent : ∀ r' : Rebuild, r'.notices = r.notices → ∃ ns,
      r'.notices = r.notices ++ ns ∧ ∀ n ∈ ns, n.line? = some l.number := fun r' hr' =>
    ⟨[], hr'.trans (List.append_nil _).symm, fun _ hn => absurd hn List.not_mem_nil⟩
  obtain ⟨region, number, text⟩ := l
  cases region with
  | none => exact hsilent r rfl
  | some region =>
    cases region with
    | retained =>
      change ∃ ns, (retainedLine _ r).notices = _ ∧ _
      rw [retainedLine]
      split
      · exact hsilent _ rfl
      · exact hsilent r rfl
    | drawing =>
      change ∃ ns, (drawingLine g _ r).notices = _ ∧ _
      rw [drawingLine]
      dsimp only
      cases Statement.ofLine text with
      | marker m =>
        exact ⟨_, notices_addMarked h m number, List.forall_mem_append.mpr
          ⟨Marker.line?_widget m _ number, line?_refusal r _ number⟩⟩
      | other inBody =>
        dsimp only
        split
        · exact hsilent r rfl
        · rw [addDrawn]
          split
          · next w _ => exact ⟨_, notices_add _ w number, line?_refusal _ w number⟩
          · exact hsilent _ rfl
      | _ => exact hsilent _ rfl

/-- Lines add notices that are on them. -/
theorem exists_notices_foldl {as : List Arrival} (h : r.AccountsFor as) (ls : List RegionLine) : ∃ ns,
    (ls.foldl (line g) r).notices = r.notices ++ ns ∧ ∀ n ∈ ns, ∃ l ∈ ls, n.line? = some l.number := by
  induction ls generalizing r as with
  | nil => exact ⟨[], (List.append_nil _).symm, fun _ hn => absurd hn List.not_mem_nil⟩
  | cons l ls ih =>
    obtain ⟨ns, hns, hline⟩ := exists_notices_line (g := g) h.ascending l
    obtain ⟨ms, hms, hlines⟩ := ih (h.line (g := g) l)
    refine ⟨ns ++ ms, ?_, List.forall_mem_append.mpr ⟨fun n hn => ?_, fun n hn => ?_⟩⟩
    · rw [List.foldl_cons, hms, hns, List.append_assoc]
    · exact ⟨l, List.mem_cons_self, hline n hn⟩
    · obtain ⟨l', hl', hn'⟩ := hlines n hn
      exact ⟨l', List.mem_cons_of_mem l hl', hn'⟩

end Rebuild

namespace RegionLine

theorem map_number_ofLines (open? : Option OpenRegion) (number : Nat) (ls : List String) :
    (ofLines open? number ls).map RegionLine.number = List.range' number ls.length := by
  induction ls generalizing open? number with
  | nil => rfl
  | cons l ls ih =>
    rw [ofLines, List.length_cons, List.range'_succ]
    exact congrArg (List.cons number) (ih _ _)

theorem nodup_number_ofText (text : String) : ((ofText text).map RegionLine.number).Nodup := by
  rw [ofText, map_number_ofLines]
  exact List.nodup_range'

end RegionLine

namespace PlacedLine

variable {g : Registry} {text : String} (p : PlacedLine text)

theorem number_ne (l : RegionLine) (hl : l ∈ p.before ∨ l ∈ p.after) : l.number ≠ p.line.number := by
  have hnodup := RegionLine.nodup_number_ofText text
  rw [p.lines_eq, List.map_append, List.map_cons] at hnodup
  obtain ⟨-, hlater, hearlier⟩ := List.nodup_append.mp hnodup
  rcases hl with hl | hl
  · exact hearlier _ (List.mem_map_of_mem hl) _ List.mem_cons_self
  · exact fun heq => (List.nodup_cons.mp hlater).1 (heq ▸ List.mem_map_of_mem hl)

theorem onLine_eq_nil {ns : List Notice} {ls : List RegionLine} (h : ∀ l ∈ ls, l.number ≠ p.line.number)
    (hns : ∀ n ∈ ns, ∃ l ∈ ls, n.line? = some l.number) : Notice.onLine p.line.number ns = [] := by
  apply Notice.onLine_eq_nil
  intro n hn hline
  obtain ⟨l, hl, hnumber⟩ := hns n hn
  exact h l hl (Option.some.inj (hnumber.symm.trans hline))

/-- The notices on a line are those that it adds. -/
theorem onLine_notices {ns : List Notice}
    (hadded : (Rebuild.line g (p.state g) p.line).notices = (p.state g).notices ++ ns)
    (hns : ∀ n ∈ ns, n.line? = some p.line.number) :
    Notice.onLine p.line.number (Layout.ofConfiguration g text).2 = ns := by
  have hstate := p.accountsFor_state g
  have hstart := Rebuild.accountsFor_start
  obtain ⟨before, hbefore, hearlier⟩ := Rebuild.exists_notices_foldl (g := g) hstart p.before
  obtain ⟨after, hafter, hlater⟩ := Rebuild.exists_notices_foldl (hstate.line p.line) p.after
  have hnotices : (Rebuild.run g text).notices = before ++ ns ++ after := by
    have hfront : (p.state g).notices = before := hbefore
    rw [p.run_eq g, hafter, hadded, hfront]
  rw [Layout.ofConfiguration, Rebuild.onLine_layout, hnotices, Notice.onLine_append, Notice.onLine_append,
    p.onLine_eq_nil (fun l hl => p.number_ne l (.inl hl)) hearlier, Notice.onLine_eq_self hns,
    p.onLine_eq_nil (fun l hl => p.number_ne l (.inr hl)) hlater, List.nil_append, List.append_nil]

end PlacedLine

/-! ## Properties that cannot be read -/

namespace Marker

/-- The text of a field is none of the kind that the property of its key has. -/
def Rejects (k : WidgetKind) (key raw : String) : Prop :=
  decodeValue? raw (Table.find? k.descriptor.defaults (k.aliases.propertyOf key)) = none

instance (k : WidgetKind) (key raw : String) : Decidable (Rejects k key raw) :=
  inferInstanceAs (Decidable (_ = none))

theorem readProp_of_rejects {k : WidgetKind} {key raw : String} (h : Rejects k key raw) :
    readProp (some k) key raw = .error (k.aliases.propertyOf key) := by
  rw [readProp, h]

theorem exists_readProp {k : WidgetKind} {key raw : String} (h : ¬ Rejects k key raw) :
    ∃ prop, readProp (some k) key raw = .ok prop := by
  obtain ⟨value, hvalue⟩ := Option.ne_none_iff_exists'.mp h
  rw [readProp, hvalue]
  exact ⟨_, rfl⟩

variable {k : WidgetKind} {line n : Nat} {id raw property : String}

/-- Every property that cannot be read is told of, and nothing else is. -/
theorem unreadable_mem_addProps {fields : List (String × String)} {w : Widget} :
    .unreadable n id raw property ∈ (addProps (some k) line w fields).2 ↔ n = line ∧ id = w.id ∧
      ∃ key, (key, raw) ∈ fields ∧ Rejects k key raw ∧ property = k.aliases.propertyOf key := by
  induction fields generalizing w with
  | nil => simp [addProps]
  | cons f fields ih =>
    obtain ⟨other, text⟩ := f
    by_cases hrejects : Rejects k other text
    · rw [addProps, readProp_of_rejects hrejects]
      dsimp only
      rw [List.mem_cons, ih, Notice.unreadable.injEq]
      constructor
      · rintro (⟨rfl, rfl, rfl, rfl⟩ | ⟨rfl, rfl, key, hmem, hrest⟩)
        · exact ⟨rfl, id_addProps _ _ _ _, other, List.mem_cons_self, hrejects, rfl⟩
        · exact ⟨rfl, rfl, key, List.mem_cons_of_mem _ hmem, hrest⟩
      · rintro ⟨rfl, rfl, key, hmem, hkey, rfl⟩
        rcases List.mem_cons.mp hmem with hfirst | hmem
        · cases hfirst
          exact .inl ⟨rfl, (id_addProps _ _ _ _).symm, rfl, rfl⟩
        · exact .inr ⟨rfl, rfl, key, hmem, hkey, rfl⟩
    · obtain ⟨prop, hprop⟩ := exists_readProp hrejects
      rw [addProps, hprop]
      dsimp only
      rw [ih]
      refine and_congr_right fun _ => and_congr_right fun _ => exists_congr fun key => ?_
      refine and_congr_left fun hrest => ⟨fun hmem => List.mem_cons_of_mem _ hmem, fun hmem => ?_⟩
      rcases List.mem_cons.mp hmem with hfirst | hmem
      · cases hfirst
        exact absurd hrest.1 hrejects
      · exact hmem

theorem unreadable_mem_widget {m : Marker} {ordinal : Nat} :
    .unreadable n id raw property ∈ (m.widget (some k) ordinal line).2 ↔
      n = line ∧ id = (m.widget (some k) ordinal line).1.id ∧
        ∃ key, (key, raw) ∈ m.propFields ∧ Rejects k key raw ∧ property = k.aliases.propertyOf key := by
  have hid : .unreadable n id raw property ∉ (m.idOr ordinal line).2 := by
    rw [idOr]
    split <;> simp
  rw [id_widget]
  change _ ∈ ((m.idOr ordinal line).2 ++ []) ++
    (addProps (some k) line (m.frame (m.idOr ordinal line).1) m.propFields).2 ↔ _
  rw [List.append_nil, List.mem_append, or_iff_right hid, unreadable_mem_addProps]
  exact Iff.rfl

/-! ## Numbers that cannot be read -/

/-- The keys whose texts are read as numbers of the widget itself. -/
def numberKeys : List String := ["x", "y", "w", "h", "cond_min", "cond_max"]

/-- A marker without the fields of a key. -/
def without (m : Marker) (key : String) : Marker := { m with fields := m.fields.filter fun f => f.1 != key }

theorem get?_without_self (m : Marker) (key : String) : (m.without key).get? key = none := by
  apply Table.find?_eq_none
  intro hmem
  obtain ⟨f, hf, rfl⟩ := List.mem_map.mp hmem
  simpa using (List.mem_filter.mp hf).2

theorem get?_without {key other : String} (h : other ≠ key) (m : Marker) :
    (m.without key).get? other = m.get? other := by
  change List.lookup other (m.fields.filter _) = List.lookup other m.fields
  induction m.fields with
  | nil => rfl
  | cons f fields ih =>
    obtain ⟨name, raw⟩ := f
    by_cases hname : name = key
    · subst hname
      rw [List.filter_cons_of_neg (by simp), ih, List.lookup_cons, beq_eq_false_iff_ne.mpr h]
    · rw [List.filter_cons_of_pos (by simpa using hname), List.lookup_cons, List.lookup_cons, ih]

variable {m : Marker} {key : String}

theorem real?_without (h : m.real? key = none) (other : String) :
    (m.without key).real? other = m.real? other := by
  by_cases hother : other = key
  · subst hother
    rw [h, real?, get?_without_self]
    rfl
  · rw [real?, real?, get?_without hother]

theorem get?_without_of_text (hkey : key ∈ numberKeys) {other : String} (hother : other ∉ numberKeys) :
    (m.without key).get? other = m.get? other := by
  apply get?_without
  rintro rfl
  exact hother hkey

theorem getFirst?_without (hkey : key ∈ numberKeys) {others : List String}
    (hothers : ∀ other ∈ others, other ∉ numberKeys) :
    (m.without key).getFirst? others = m.getFirst? others := by
  induction others with
  | nil => rfl
  | cons other others ih =>
    obtain ⟨hother, hrest⟩ := List.forall_mem_cons.mp hothers
    rw [getFirst?, getFirst?, List.findSome?_cons, List.findSome?_cons, get?_without_of_text hkey hother,
      ← getFirst?, ← getFirst?, ih hrest]

theorem condition_without (hkey : key ∈ numberKeys) (h : m.real? key = none) :
    (m.without key).condition = m.condition := by
  rw [condition, condition, real?_without h, real?_without h, get?_without_of_text hkey (by decide),
    get?_without_of_text hkey (by decide), get?_without_of_text hkey (by decide)]

theorem frame_without (hkey : key ∈ numberKeys) (h : m.real? key = none) (id : String) :
    (m.without key).frame id = m.frame id := by
  rw [frame, frame, real?_without h, real?_without h, real?_without h, real?_without h,
    getFirst?_without hkey (by decide), getFirst?_without hkey (by decide),
    getFirst?_without hkey (by decide), condition_without hkey h]
  rfl

theorem propFields_without (hkey : key ∈ numberKeys) : (m.without key).propFields = m.propFields := by
  have hreserved : reservedKeys.contains key = true := by
    have hall : ∀ number ∈ numberKeys, reservedKeys.contains number = true := by decide
    exact hall key hkey
  rw [propFields, propFields, without, List.filter_filter]
  apply List.filter_congr
  intro f _
  by_cases hf : f.1 = key
  · rw [hf, hreserved]
    rfl
  · rw [bne_iff_ne.mpr hf, Bool.and_true]

/-- A number that cannot be read is passed over: the marker reads as if it had no such field. -/
theorem widget_without (hkey : key ∈ numberKeys) (h : m.real? key = none) (kind? : Option WidgetKind)
    (ordinal line : Nat) : (m.without key).widget kind? ordinal line = m.widget kind? ordinal line := by
  have hid : (m.without key).idOr ordinal line = m.idOr ordinal line := by
    have hne : "id" ≠ key := fun heq => absurd (heq ▸ hkey) (by decide)
    rw [idOr, idOr, get?_without hne]
    rfl
  rw [widget, widget, hid]
  dsimp only
  rw [frame_without hkey h, propFields_without hkey]
  rfl

end Marker

/-- A line of a configuration that is the marker of a known kind. -/
structure MarkerLine (g : Registry) (text : String) extends PlacedLine text where
  marker : Marker
  kind : WidgetKind
  isMarker : line.marker? = some marker
  isKnown : g.kind? marker.kind = some kind

namespace MarkerLine

variable {g : Registry} {text : String} (d : MarkerLine g text)

/-- What the marker is read to, in the page that is open at the line. -/
def read : Widget × List Notice :=
  d.marker.widget (some d.kind) (d.toPlacedLine.state g).currentPage.widgets.length d.line.number

/-- A field that cannot be read as what its key stands for. -/
def IsUnreadable (key raw : String) : Prop :=
  key ∈ Marker.numberKeys ∧ d.marker.get? key = some raw ∧ Binary64.read? (trimChars raw.toList) = none ∨
    (key, raw) ∈ d.marker.propFields ∧ Marker.Rejects d.kind key raw

theorem line_eq : Rebuild.line g (d.toPlacedLine.state g) d.line =
    (d.toPlacedLine.state g).addMarked g d.marker d.line.number := by
  obtain ⟨hregion, hmarker⟩ :
      d.line.region = some .drawing ∧ Marker.ofLine? d.line.text = some d.marker := by
    simpa [RegionLine.marker?] using d.isMarker
  have hstatement := Statement.marker?_ofLine d.line.text
  rw [hmarker] at hstatement
  rw [Rebuild.line, hregion]
  change Rebuild.drawingLine g d.line _ = _
  rw [Rebuild.drawingLine]
  cases hs : Statement.ofLine d.line.text with
  | marker m =>
    rw [hs] at hstatement
    obtain rfl := Option.some.inj hstatement
    rfl
  | _ =>
    rw [hs] at hstatement
    cases hstatement

/-- The notices on the line of a marker are those of its reading, and one if its page refuses it. -/
theorem onLine_notices : Notice.onLine d.line.number (Layout.ofConfiguration g text).2 =
    d.read.2 ++ (d.toPlacedLine.state g).refusal d.read.1 d.line.number := by
  have hadded := Rebuild.notices_addMarked (g := g) (d.toPlacedLine.accountsFor_state g).ascending
    d.marker d.line.number
  rw [← d.line_eq, d.isKnown] at hadded
  exact d.toPlacedLine.onLine_notices hadded (List.forall_mem_append.mpr
    ⟨Marker.line?_widget d.marker _ d.line.number, Rebuild.line?_refusal _ _ _⟩)

theorem unreadable_mem_iff {id raw property : String} :
    .unreadable d.line.number id raw property ∈ (Layout.ofConfiguration g text).2 ↔
      .unreadable d.line.number id raw property ∈ d.read.2 := by
  have hrefusal : .unreadable d.line.number id raw property ∉
      (d.toPlacedLine.state g).refusal d.read.1 d.line.number := by
    rw [Rebuild.refusal]
    split <;> simp
  have honLine : .unreadable d.line.number id raw property ∈ (Layout.ofConfiguration g text).2 ↔
      .unreadable d.line.number id raw property ∈
        Notice.onLine d.line.number (Layout.ofConfiguration g text).2 := by
    simp [Notice.onLine, Notice.line?]
  rw [honLine, d.onLine_notices, List.mem_append, or_iff_left hrefusal]

/-- On the line of a marker of a known kind, a rebuild tells of each property whose text is none of its
kind, and of no other field. A number of the box or of the condition that cannot be read is passed over:
the marker reads as if it had no such field. -/
theorem unreadable_iff_rejects :
    (∀ id raw property : String,
      .unreadable d.line.number id raw property ∈ (Layout.ofConfiguration g text).2 ↔ id = d.read.1.id ∧
        ∃ key, (key, raw) ∈ d.marker.propFields ∧ Marker.Rejects d.kind key raw ∧
          property = d.kind.aliases.propertyOf key) ∧
    ∀ key ∈ Marker.numberKeys, d.marker.real? key = none → d.read =
      (d.marker.without key).widget (some d.kind) (d.toPlacedLine.state g).currentPage.widgets.length
        d.line.number := by
  refine ⟨fun id raw property => ?_, fun key hkey hnone => (Marker.widget_without hkey hnone _ _ _).symm⟩
  rw [d.unreadable_mem_iff, read, Marker.unreadable_mem_widget, and_iff_right rfl]

def ofPlaced (p : PlacedLine text) (h : p.line.marker?.isSome)
    (hknown : (g.kind? (p.line.marker?.get h).kind).isSome) : MarkerLine g text :=
  { p with
    marker := p.line.marker?.get h
    kind := Option.get _ hknown
    isMarker := (Option.some_get h).symm
    isKnown := (Option.some_get hknown).symm }

/-- A marker with a font size and a place that are none. -/
def misspelled : String := "lambda: |-\n  // widget:text id:a font_size:big x:left\n"

theorem unreadable_iff_rejects_misspelled : ∃ d : MarkerLine .builtin misspelled,
    .unreadable d.line.number "a" "big" "font_size" ∈ (Layout.ofConfiguration .builtin misspelled).2 ∧
      d.read = (d.marker.without "x").widget (some d.kind)
        (d.toPlacedLine.state .builtin).currentPage.widgets.length d.line.number := by
  let d : MarkerLine .builtin misspelled :=
    ofPlaced (.ofPlace 1 (by decide +kernel)) (by decide +kernel) (by decide +kernel)
  have hid : "a" = d.read.1.id := by decide +kernel
  have hfield : ("font_size", "big") ∈ d.marker.propFields := by decide +kernel
  have hrejects : Marker.Rejects d.kind "font_size" "big" := by decide +kernel
  have hproperty : "font_size" = d.kind.aliases.propertyOf "font_size" := by decide +kernel
  exact ⟨d, (d.unreadable_iff_rejects.1 _ _ _).mpr ⟨hid, "font_size", hfield, hrejects, hproperty⟩,
    d.unreadable_iff_rejects.2 "x" (by decide) (by decide +kernel)⟩

/-- A marker with a place that is none. -/
def misplaced : String := "lambda: |-\n  // widget:text id:a x:left\n"

/-- Nothing is said of a place that cannot be read. -/
theorem not_forall_isUnreadable : ¬ ∀ (text : String) (d : MarkerLine .builtin text) (key raw : String),
    d.IsUnreadable key raw →
      ∃ n ∈ (Layout.ofConfiguration .builtin text).2, n.line? = some d.line.number := by
  intro h
  let d : MarkerLine .builtin misplaced :=
    ofPlaced (.ofPlace 1 (by decide +kernel)) (by decide +kernel) (by decide +kernel)
  have hplace : d.marker.get? "x" = some "left" := by decide +kernel
  have hnone : (Layout.ofConfiguration .builtin misplaced).2 = [] := by decide +kernel
  obtain ⟨n, hn, -⟩ := h misplaced d "x" "left" (.inl ⟨by decide, hplace, by decide +kernel⟩)
  rw [hnone] at hn
  exact List.not_mem_nil hn

end MarkerLine

end Dashboard
