import Dashboard.Proofs.Compile.Alongside
import Dashboard.Proofs.Kind.Calls
/-!
# Sums and products of pixels

Three kinds compute with pixels in ways that do not stop at the ends of the range: a line is shifted into its box, the
title of a chart stands a few pixels inside of it, and a circle is drawn by its diameter. Here their exports are told
over any arithmetic of pixels. As long as the results are pixels, every exact arithmetic gives the same exports;
a checked arithmetic has no export for a widget with a result that is no pixel.
-/

namespace Dashboard

open Number Emission Text

namespace Pixel

/-- A whole number that is a pixel. -/
def InRange (i : Int) : Prop := lowestOf 32 ≤ i ∧ i ≤ highestOf 32

instance (i : Int) : Decidable (InRange i) := inferInstanceAs (Decidable (_ ∧ _))

theorem ofInt?_of_inRange {i : Int} (h : InRange i) : ofInt? i = some (Int32.ofInt i) := by
  simp [ofInt?, h.1, h.2]

theorem ofInt?_of_not_inRange {i : Int} (h : ¬ InRange i) : ofInt? i = none := by
  unfold InRange at h
  simpa [ofInt?] using h

end Pixel

/-- A way to compute sums and products of pixels. An operation may have no result. -/
structure Arithmetic where
  add : Pixel → Pixel → Option Pixel
  mul : Pixel → Pixel → Option Pixel

namespace Arithmetic

/-- Results that are pixels are exact. Beyond the range anything may happen. -/
structure IsExact (a : Arithmetic) : Prop where
  add : ∀ p q, Pixel.InRange (p.toInt + q.toInt) → a.add p q = some (Int32.ofInt (p.toInt + q.toInt))
  mul : ∀ p q, Pixel.InRange (p.toInt * q.toInt) → a.mul p q = some (Int32.ofInt (p.toInt * q.toInt))

/-- Results beyond one end of the range come back at the other end. -/
def wrapping : Arithmetic := ⟨fun p q => some (p + q), fun p q => some (p * q)⟩

/-- There are no results beyond the range. -/
def checked : Arithmetic :=
  ⟨fun p q => Pixel.ofInt? (p.toInt + q.toInt), fun p q => Pixel.ofInt? (p.toInt * q.toInt)⟩

theorem isExact_wrapping : wrapping.IsExact where
  add := fun p q _ => by rw [Int32.ofInt_add, Int32.ofInt_toInt, Int32.ofInt_toInt]; rfl
  mul := fun p q _ => by rw [Int32.ofInt_mul, Int32.ofInt_toInt, Int32.ofInt_toInt]; rfl

theorem isExact_checked : checked.IsExact where
  add := fun _ _ h => Pixel.ofInt?_of_inRange h
  mul := fun _ _ h => Pixel.ofInt?_of_inRange h

/-- The export of a widget fails without a result. -/
def resultFor (w : Widget) : Option Pixel → Except ExportError Pixel
  | some p => .ok p
  | none => .error (.invalidValue w.id "geometry" "out of range")

def sum (a : Arithmetic) (w : Widget) (p q : Pixel) : Except ExportError Pixel := resultFor w (a.add p q)

def product (a : Arithmetic) (w : Widget) (p q : Pixel) : Except ExportError Pixel := resultFor w (a.mul p q)

variable {a : Arithmetic} {w : Widget} {p q : Pixel}

theorem IsExact.sum (ha : a.IsExact) (h : Pixel.InRange (p.toInt + q.toInt)) : a.sum w p q = .ok (p + q) :=
  congrArg (resultFor w) ((ha.add p q h).trans (isExact_wrapping.add p q h).symm)

theorem IsExact.product (ha : a.IsExact) (h : Pixel.InRange (p.toInt * q.toInt)) : a.product w p q = .ok (p * q) :=
  congrArg (resultFor w) ((ha.mul p q h).trans (isExact_wrapping.mul p q h).symm)

theorem inRange_of_checked_sum {r : Pixel} (h : checked.sum w p q = .ok r) : Pixel.InRange (p.toInt + q.toInt) := by
  by_contra hout
  have hnone : checked.add p q = none := Pixel.ofInt?_of_not_inRange hout
  rw [sum, hnone] at h
  exact nomatch h

theorem inRange_of_checked_product {r : Pixel} (h : checked.product w p q = .ok r) :
    Pixel.InRange (p.toInt * q.toInt) := by
  by_contra hout
  have hnone : checked.mul p q = none := Pixel.ofInt?_of_not_inRange hout
  rw [product, hnone] at h
  exact nomatch h

end Arithmetic

namespace Kind

variable {a : Arithmetic} {w : Widget} {s : Setting}

/-! ## Lines -/

namespace Line

/-- The edge of the box that a line runs along. -/
def edge (p : Props) (r : Rect) : Pixel :=
  match p.orientation with
  | .horizontal => r.y
  | .vertical => r.x

def halfStroke (p : Props) : Pixel := Int32.ofNat (p.strokeWidth.toNat / 2)

/-- The ends of a line with a given center. -/
def endsAt (p : Props) (r : Rect) (center : Pixel) : Edges :=
  match p.orientation with
  | .horizontal => ⟨r.x, center, r.right, center⟩
  | .vertical => ⟨center, r.y, center, r.bottom⟩

theorem ends_eq (p : Props) (r : Rect) : ends p r = endsAt p r (edge p r + halfStroke p) := by
  unfold ends endsAt edge
  cases p.orientation <;> rfl

/-- The results that the instruction of a line takes. -/
def results (w : Widget) : List Int :=
  match schema.read w with
  | .ok p => [(edge p w.rect).toInt + (halfStroke p).toInt]
  | .error _ => []

def declarativeOver (a : Arithmetic) (s : Setting) (_ : Resources) (_ : Flavor) (w : Widget) :
    Except ExportError (List Instruction) := do
  let p ← schema.readForExport w
  let center ← a.sum w (edge p w.rect) (halfStroke p)
  return [.line { edges := endsAt p w.rect center, fill := s.drawnColor p.color, width := stroke p }]

variable {r : Resources} {f : Flavor}

theorem exists_of_mem_results {i : Int} (h : i ∈ results w) :
    ∃ p, schema.read w = .ok p ∧ i = (edge p w.rect).toInt + (halfStroke p).toInt := by
  unfold results at h
  split at h
  · next p hp => exact ⟨p, hp, List.mem_singleton.mp h⟩
  · exact absurd h List.not_mem_nil

theorem declarativeOver_eq (h : ∀ p, schema.read w = .ok p →
    a.sum w (edge p w.rect) (halfStroke p) = .ok (edge p w.rect + halfStroke p)) :
    declarativeOver a s r f w = declarative s r f w := by
  unfold declarativeOver declarative Schema.readForExport
  cases hread : schema.read w with
  | error e => rfl
  | ok p => simp only [Except.mapError, ends_eq, h p hread, bind, Except.bind]

theorem declarativeOver_of_isExact (ha : a.IsExact) (h : ∀ i ∈ results w, Pixel.InRange i) :
    declarativeOver a s r f w = declarative s r f w := by
  refine declarativeOver_eq fun p hp => ha.sum (h _ ?_)
  simp only [results, hp, List.mem_singleton]

theorem inRange_of_declarativeOver {is : List Instruction} (h : declarativeOver .checked s r f w = .ok is) :
    ∀ i ∈ results w, Pixel.InRange i := by
  intro i hi
  obtain ⟨p, hp, rfl⟩ := exists_of_mem_results hi
  obtain ⟨q, hq, h⟩ := exists_of_bind h
  obtain ⟨center, hcenter, -⟩ := exists_of_bind h
  cases (Schema.readForExport_eq hp).symm.trans hq
  exact Arithmetic.inRange_of_checked_sum hcenter

theorem declarative_of_mem_results {i : Int} (hi : i ∈ results w) : ∃ is, kind.declarative s r f w = .ok is := by
  obtain ⟨p, hp, -⟩ := exists_of_mem_results hi
  refine ⟨[.line { edges := ends p w.rect, fill := s.drawnColor p.color, width := stroke p }], ?_⟩
  change declarative s r f w = _
  rw [declarative, Schema.readForExport_eq hp]
  rfl

end Line

/-! ## Charts -/

namespace Chart

/-- The results that the drawing code of a chart takes. -/
def results (w : Widget) : List Int :=
  match schema.read w with
  | .ok p =>
    match styleOf p w, entityOf w, title? w with
    | .ok _, .ok _, some _ => [w.rect.x.toInt + 4, w.rect.y.toInt + 2]
    | _, _, _ => []
  | .error _ => []

def titleCallOver (a : Arithmetic) (w : Widget) (font color title : String) : Except ExportError String := do
  let x ← a.sum w w.rect.x 4
  let y ← a.sum w w.rect.y 2
  return call "print" [pixelText x, pixelText y, componentRef font, color, "TextAlign::TOP_LEFT", literal title]

def blockOver (a : Arithmetic) (p : Props) (w : Widget) (color : String) (font : Option String) :
    Except ExportError (List String) := do
  let b := Block.start w (schema.bag p) []
  let b := if p.border then b.line (frameCall w.rect color) else b
  let b ← match title? w, font with
    | some title, some font => b.line <$> titleCallOver a w font color title
    | _, _ => pure b
  return (b.line (graphCall w color)).finish

def proceduralOver (a : Arithmetic) (s : Setting) (w : Widget) : Emission (List String) := do
  let p ← Emission.ofExcept (schema.readForExport w)
  let _ ← Emission.ofExcept (entityOf w)
  let color ← Emission.register (Resources.colorConstant s p.color .foreground)
  let font ← addTitleFont w
  Emission.ofExcept (blockOver a p w color font)

variable {i : Int} {p : Props}

theorem exists_of_mem_results (h : i ∈ results w) :
    ∃ p style read title, schema.read w = .ok p ∧ styleOf p w = .ok style ∧ entityOf w = .ok read ∧
      title? w = some title ∧ (i = w.rect.x.toInt + 4 ∨ i = w.rect.y.toInt + 2) := by
  unfold results at h
  split at h
  · next p hp =>
    split at h
    · next style read title hstyle hread htitle =>
      exact ⟨p, style, read, title, hp, hstyle, hread, htitle, by simpa using h⟩
    · exact absurd h List.not_mem_nil
  · exact absurd h List.not_mem_nil

/-- The sums that place a title are those of the drawing code. -/
def PlacesTitle (a : Arithmetic) (w : Widget) : Prop :=
  a.sum w w.rect.x 4 = .ok (w.rect.x + 4) ∧ a.sum w w.rect.y 2 = .ok (w.rect.y + 2)

theorem blockOver_eq (h : ∀ title, title? w = some title → PlacesTitle a w) (color : String) (font : Option String) :
    blockOver a p w color font = .ok (block p w color font) := by
  unfold blockOver block
  cases htitle : title? w with
  | none => rfl
  | some title =>
    obtain ⟨hx, hy⟩ := h title htitle
    cases font with
    | none => rfl
    | some font =>
      simp only [titleCallOver, hx, hy]
      rfl

theorem proceduralOver_eq (h : ∀ title, title? w = some title → PlacesTitle a w) :
    proceduralOver a s w = procedural s w := by
  unfold proceduralOver procedural
  simp only [blockOver_eq h]
  rfl

theorem exists_of_collect {u : Unit} {r after : Resources} (h : runWith (collect s w) r = (.ok u, after)) :
    ∃ p style read, schema.read w = .ok p ∧ styleOf p w = .ok style ∧ entityOf w = .ok read := by
  obtain ⟨p, _, hp, h⟩ := ok_of_bind h
  obtain ⟨style, _, hstyle, h⟩ := ok_of_bind h
  obtain ⟨read, _, hread, -⟩ := ok_of_bind h
  exact ⟨p, style, read, Schema.read_of_readForExport (ok_of_ofExcept hp).1, (ok_of_ofExcept hstyle).1,
    (ok_of_ofExcept hread).1⟩

/-- Drawing code that is asked for after its resources were collected. -/
theorem proceduralOver_of_isExact (ha : a.IsExact) {style : Style} {read : EntityRead} (hp : schema.read w = .ok p)
    (hstyle : styleOf p w = .ok style) (hread : entityOf w = .ok read) (h : ∀ i ∈ results w, Pixel.InRange i) :
    proceduralOver a s w = procedural s w := by
  refine proceduralOver_eq fun title htitle => ?_
  simp only [results, hp, hstyle, hread, htitle, List.forall_mem_cons] at h
  exact ⟨ha.sum h.1, ha.sum h.2.1⟩

theorem inRange_of_proceduralOver {lines : List String} {r after : Resources}
    (h : runWith (proceduralOver .checked s w) r = (.ok lines, after)) : ∀ i ∈ results w, Pixel.InRange i := by
  intro i hi
  obtain ⟨p, style, read, title, hp, hstyle, hread, htitle, hi⟩ := exists_of_mem_results hi
  obtain ⟨q, _, hq, h⟩ := ok_of_bind h
  obtain ⟨_, _, -, h⟩ := ok_of_bind h
  obtain ⟨color, _, -, h⟩ := ok_of_bind h
  obtain ⟨font, _, hfont, h⟩ := ok_of_bind h
  obtain ⟨font, rfl⟩ : ∃ name, font = some name := by
    rw [addTitleFont, htitle] at hfont
    exact ⟨_, (Except.ok.inj (congrArg Prod.fst hfont)).symm⟩
  have hblock := (ok_of_ofExcept h).1
  unfold blockOver at hblock
  rw [htitle] at hblock
  obtain ⟨b, hb, -⟩ := exists_of_bind hblock
  obtain ⟨call, hcall, -⟩ := exists_of_map hb
  obtain ⟨x, hx, hcall⟩ := exists_of_bind hcall
  obtain ⟨y, hy, -⟩ := exists_of_bind hcall
  rcases hi with rfl | rfl
  · exact Arithmetic.inRange_of_checked_sum hx
  · exact Arithmetic.inRange_of_checked_sum hy

theorem gives_addTitleFont (w : Widget) : Gives (fun _ => True) (addTitleFont w) := by
  unfold addTitleFont
  split
  · exact fun r => ⟨_, _, rfl, trivial⟩
  · exact .pure trivial

/-- A chart that takes results has drawing code. -/
theorem gives_emit_of_mem_results (hi : i ∈ results w) (hs : s.target = .procedural) :
    Gives (fun _ => True) (kind.emit s w) := by
  obtain ⟨p, style, read, title, hp, hstyle, hread, -⟩ := exists_of_mem_results hi
  have hcollect : Gives (fun _ => True) (collect s w) := by
    refine .ofExcept_bind (Schema.readForExport_eq hp) (.ofExcept_bind hstyle (.ofExcept_bind hread ?_))
    refine (gives_addTitleFont w).bind fun _ _ => ?_
    rw [if_pos hs]
    exact Gives.bind (Q := fun _ => True) (.register fun _ => trivial) fun _ _ => .pure trivial
  refine hcollect.bind fun _ _ => ?_
  have hprocedural : Gives (fun _ => True) (procedural s w) := by
    refine .ofExcept_bind (Schema.readForExport_eq hp) (.ofExcept_bind hread ?_)
    refine Gives.bind (Q := fun _ => True) (.register fun _ => trivial) fun _ _ => ?_
    exact (gives_addTitleFont w).bind fun _ _ => .pure trivial
  unfold WidgetKind.content
  rw [hs]
  exact hprocedural.bind fun _ _ => .pure trivial

end Chart

/-! ## Circles -/

namespace Circle

/-- The results that the node of a circle takes. -/
def results (w : Widget) : List Int :=
  match schema.read w with
  | .ok _ => [w.rect.innerRadius.toInt * 2]
  | .error _ => []

def retainedOver (a : Arithmetic) (s : Setting) (_ : Resources) (w : Widget) :
    Except ExportError (List RetainedNode) := do
  let p ← schema.readForExport w
  let diameter ← a.product w w.rect.innerRadius 2
  return [node p w diameter (p.paint.background s) (s.drawnGuiColor p.paint.outlineColor)]

variable {r : Resources}

theorem exists_of_mem_results {i : Int} (h : i ∈ results w) :
    ∃ p, schema.read w = .ok p ∧ i = w.rect.innerRadius.toInt * 2 := by
  unfold results at h
  split at h
  · next p hp => exact ⟨p, hp, List.mem_singleton.mp h⟩
  · exact absurd h List.not_mem_nil

theorem retainedOver_eq (h : ∀ p, schema.read w = .ok p →
    a.product w w.rect.innerRadius 2 = .ok (w.rect.innerRadius * 2)) : retainedOver a s r w = retained s r w := by
  cases hread : schema.read w with
  | error e =>
    unfold retainedOver retained Schema.readForExport
    rw [hread]
    rfl
  | ok p =>
    rw [retained_of_read hread, retainedOver, Schema.readForExport_eq hread, h p hread]
    rfl

theorem retainedOver_of_isExact (ha : a.IsExact) (h : ∀ i ∈ results w, Pixel.InRange i) :
    retainedOver a s r w = retained s r w := by
  refine retainedOver_eq fun p hp => ha.product (h _ ?_)
  rw [results, hp]
  exact List.mem_singleton.mpr rfl

theorem inRange_of_retainedOver {nodes : List RetainedNode} (h : retainedOver .checked s r w = .ok nodes) :
    ∀ i ∈ results w, Pixel.InRange i := by
  intro i hi
  obtain ⟨p, hp, rfl⟩ := exists_of_mem_results hi
  obtain ⟨_, -, h⟩ := exists_of_bind h
  obtain ⟨diameter, hdiameter, -⟩ := exists_of_bind h
  exact Arithmetic.inRange_of_checked_product hdiameter

theorem retained_of_mem_results {i : Int} (hi : i ∈ results w) : ∃ nodes, kind.retained s r w = .ok nodes := by
  obtain ⟨p, hp, -⟩ := exists_of_mem_results hi
  exact ⟨_, retained_of_read hp s r⟩

end Circle

/-! ## All kinds -/

/-- A kind whose exports compute with an arithmetic. -/
def overArithmetic (a : Arithmetic) (k : WidgetKind) : WidgetKind :=
  { k with
    procedural := if k.id = Chart.kind.id then Chart.proceduralOver a else k.procedural
    retained := if k.id = Circle.kind.id then Circle.retainedOver a else k.retained
    declarative := if k.id = Line.kind.id then Line.declarativeOver a else k.declarative }

end Kind

namespace Widget

/-- The exact results that the exports of a widget take. -/
def results (t : Target) (w : Widget) : List Int :=
  match t with
  | .procedural => if w.kind = Kind.Chart.kind.id then Kind.Chart.results w else []
  | .retained => if w.kind = Kind.Circle.kind.id then Kind.Circle.results w else []
  | .declarative _ => if w.kind = Kind.Line.kind.id then Kind.Line.results w else []

/-- All results that the exports of a widget take are pixels. -/
def StaysInRange (t : Target) (w : Widget) : Prop := ∀ i ∈ w.results t, Pixel.InRange i

instance (t : Target) (w : Widget) : Decidable (w.StaysInRange t) :=
  inferInstanceAs (Decidable (∀ i ∈ w.results t, Pixel.InRange i))

end Widget

namespace Kind

variable {k : WidgetKind} {r after : Resources} {f : Flavor}

theorem eq_of_id {k' : WidgetKind} (hk : k ∈ builtin) (hk' : k' ∈ builtin) (h : k.id = k'.id) : k = k' :=
  List.inj_on_of_nodup_map (by decide : (builtin.map WidgetKind.id).Nodup) hk hk' h

theorem chart_mem_builtin : Chart.kind ∈ builtin := by simp [builtin]

theorem circle_mem_builtin : Circle.kind ∈ builtin := by simp [builtin]

theorem line_mem_builtin : Line.kind ∈ builtin := by simp [builtin]

/-- The exports of the kinds themselves wrap around. -/
theorem over_wrapping (hk : k ∈ builtin) : overArithmetic .wrapping k = k := by
  have hchart : Chart.proceduralOver .wrapping = Chart.procedural :=
    funext fun _ => funext fun _ => Chart.proceduralOver_eq fun _ _ => ⟨rfl, rfl⟩
  have hcircle : Circle.retainedOver .wrapping = Circle.retained :=
    funext fun _ => funext fun _ => funext fun _ => Circle.retainedOver_eq fun _ _ => rfl
  have hline : Line.declarativeOver .wrapping = Line.declarative :=
    funext fun _ => funext fun _ => funext fun _ => funext fun _ => Line.declarativeOver_eq fun _ _ => rfl
  simp only [builtin, List.mem_cons, List.not_mem_nil, or_false] at hk
  rcases hk with rfl | rfl | rfl | rfl | rfl | rfl | rfl | rfl | rfl
  case inr.inr.inr.inl => exact congrArg (fun retained => { Circle.kind with retained }) hcircle
  case inr.inr.inr.inr.inl => exact congrArg (fun declarative => { Line.kind with declarative }) hline
  case inr.inr.inr.inr.inr.inl => exact congrArg (fun procedural => { Chart.kind with procedural }) hchart
  all_goals rfl

/-- Which widgets take results, and in which target. -/
theorem cases_of_mem_results {t : Target} {i : Int} (hi : i ∈ w.results t) :
    (t = .procedural ∧ w.kind = Chart.kind.id ∧ i ∈ Chart.results w) ∨
      (t = .retained ∧ w.kind = Circle.kind.id ∧ i ∈ Circle.results w) ∨
      ((∃ f, t = .declarative f) ∧ w.kind = Line.kind.id ∧ i ∈ Line.results w) := by
  have hif : ∀ {c : Prop} [Decidable c] {is : List Int}, i ∈ (if c then is else []) → c ∧ i ∈ is := by
    intro c _ is h
    split at h
    · exact ⟨‹c›, h⟩
    · exact absurd h List.not_mem_nil
  cases t with
  | procedural => exact .inl ⟨rfl, hif hi⟩
  | retained => exact .inr (.inl ⟨rfl, hif hi⟩)
  | declarative f => exact .inr (.inr ⟨⟨f, rfl⟩, hif hi⟩)

/-- Exports that take pixels only are the same over every exact arithmetic. -/
theorem emit_over (ha : a.IsExact) (hk : k ∈ builtin) (hid : k.id = w.kind) (h : w.StaysInRange s.target)
    (r : Resources) : runWith ((overArithmetic a k).emit s w) r = runWith (k.emit s w) r := by
  refine runWith_bind_congr (e := k.collectFor s w) fun u middle hcollect => ?_
  unfold Widget.StaysInRange at h
  unfold WidgetKind.content
  cases hs : s.target with
  | procedural =>
    rw [hs] at h
    by_cases hchart : k.id = Chart.kind.id
    · obtain rfl := eq_of_id hk chart_mem_builtin hchart
      rw [Widget.results, if_pos hid.symm] at h
      obtain ⟨p, style, read, hp, hstyle, hread⟩ := Chart.exists_of_collect hcollect
      simp only [overArithmetic, if_true, Chart.proceduralOver_of_isExact ha hp hstyle hread h]
      rfl
    · simp only [overArithmetic, if_neg hchart]
  | retained =>
    rw [hs] at h
    by_cases hcircle : k.id = Circle.kind.id
    · obtain rfl := eq_of_id hk circle_mem_builtin hcircle
      rw [Widget.results, if_pos hid.symm] at h
      simp only [overArithmetic, if_true, Circle.retainedOver_of_isExact ha h]
      rfl
    · simp only [overArithmetic, if_neg hcircle]
  | declarative f =>
    rw [hs] at h
    by_cases hline : k.id = Line.kind.id
    · obtain rfl := eq_of_id hk line_mem_builtin hline
      rw [Widget.results, if_pos hid.symm] at h
      simp only [overArithmetic, if_true, Line.declarativeOver_of_isExact ha h]
      rfl
    · simp only [overArithmetic, if_neg hline]

/-- A widget that has its exports over a checked arithmetic takes pixels only. -/
theorem staysInRange_of_emit_over (hk : k ∈ builtin) (hid : k.id = w.kind) {c : Content}
    (h : runWith ((overArithmetic .checked k).emit s w) r = (.ok c, after)) : w.StaysInRange s.target := by
  intro i hi
  obtain ⟨_, middle, -, hcontent⟩ := ok_of_bind h
  obtain ⟨hs, hkind, hi⟩ | ⟨hs, hkind, hi⟩ | ⟨⟨f, hs⟩, hkind, hi⟩ := cases_of_mem_results hi
  · obtain rfl := eq_of_id hk chart_mem_builtin (hid.trans hkind)
    unfold WidgetKind.content at hcontent
    rw [hs] at hcontent
    obtain ⟨lines, _, hlines, -⟩ := ok_of_bind hcontent
    exact Chart.inRange_of_proceduralOver hlines i hi
  · obtain rfl := eq_of_id hk circle_mem_builtin (hid.trans hkind)
    rw [WidgetKind.runWith_content_retained hs] at hcontent
    obtain ⟨nodes, hnodes, -⟩ := exists_of_map (congrArg Prod.fst hcontent)
    exact Circle.inRange_of_retainedOver (r := middle) hnodes i hi
  · obtain rfl := eq_of_id hk line_mem_builtin (hid.trans hkind)
    rw [WidgetKind.runWith_content_declarative hs] at hcontent
    obtain ⟨is, his, -⟩ := exists_of_map (congrArg Prod.fst hcontent)
    exact Line.inRange_of_declarativeOver (r := middle) (f := f) his i hi

/-- A widget that takes results at all has its exports. -/
theorem exists_gives_of_mem_results {i : Int} (hi : i ∈ w.results s.target) :
    ∃ k ∈ builtin, k.id = w.kind ∧ k.serves s.target = true ∧ Gives (fun _ => True) (k.emit s w) := by
  obtain ⟨hs, hkind, hi⟩ | ⟨hs, hkind, hi⟩ | ⟨⟨f, hs⟩, hkind, hi⟩ := cases_of_mem_results hi
  · exact ⟨Chart.kind, chart_mem_builtin, hkind.symm, hs ▸ rfl, Chart.gives_emit_of_mem_results hi hs⟩
  · refine ⟨Circle.kind, circle_mem_builtin, hkind.symm, hs ▸ rfl, fun r => ?_⟩
    obtain ⟨nodes, hnodes⟩ := Circle.retained_of_mem_results (s := s) (r := r) hi
    refine ⟨{ nodes }, r, ?_, trivial⟩
    change runWith (Circle.kind.content s w) r = _
    rw [WidgetKind.runWith_content_retained hs, hnodes]
    rfl
  · refine ⟨Line.kind, line_mem_builtin, hkind.symm, ?_, fun r => ?_⟩
    · rw [hs]
      cases f <;> rfl
    obtain ⟨is, his⟩ := Line.declarative_of_mem_results (s := s) (r := r) (f := f) hi
    refine ⟨{ instructions := is }, r, ?_, trivial⟩
    change runWith (Line.kind.content s w) r = _
    rw [WidgetKind.runWith_content_declarative hs, his]
    rfl

theorem isOblivious_over (hk : k.IsOblivious) (a : Arithmetic) : (overArithmetic a k).IsOblivious where
  collect := hk.collect
  procedural := by
    intro s w
    unfold overArithmetic
    by_cases hchart : k.id = Chart.kind.id
    · rw [if_pos hchart]
      exact .bind (.ofExcept _) fun _ => .bind (.ofExcept _) fun _ => .bind (.colorConstant _ _ _) fun _ =>
        .bind (Chart.addTitleFont_oblivious w) fun _ => .ofExcept _
    · rw [if_neg hchart]
      exact hk.procedural s w
  retained := by
    intro s r r' w
    unfold overArithmetic
    by_cases hcircle : k.id = Circle.kind.id
    · rw [if_pos hcircle]
      rfl
    · rw [if_neg hcircle]
      exact hk.retained s r r' w
  declarative := by
    intro s r r' f w
    unfold overArithmetic
    by_cases hline : k.id = Line.kind.id
    · rw [if_pos hline]
      rfl
    · rw [if_neg hline]
      exact hk.declarative s r r' f w

end Kind

end Dashboard
