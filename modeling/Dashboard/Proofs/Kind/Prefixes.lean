import Dashboard.Proofs.Json.Differing
import Dashboard.Proofs.Kind.Anchors
import Dashboard.Proofs.Kind.Discs
import Dashboard.Proofs.Rebuild.Texts
import Dashboard.Proofs.Text.Literals
/-!
# Texts before the state of an entity

Two text widgets of one entity that differ in their texts show different things: the formats of the drawing code
differ, because doubling percent signs and escaping a literal lose nothing, and so do the values of the instructions.
A node shows the state alone, so it does not tell the two apart.
-/

namespace Dashboard

open Text Number Emission Statement Json

/-! ## Escapes -/

/-- A list is known by the codes of its items if these tell where they end. -/
theorem flatMap_injective {α β : Type} {f : α → List β} (hne : ∀ a, f a ≠ [])
    (hcode : ∀ a b as bs, f a ++ as = f b ++ bs → a = b) {as bs : List α} (h : as.flatMap f = bs.flatMap f) :
    as = bs := by
  induction as generalizing bs with
  | nil =>
    cases bs with
    | nil => rfl
    | cons b bs => exact absurd (List.append_eq_nil_iff.mp h.symm).1 (hne b)
  | cons a as ih =>
    cases bs with
    | nil => exact absurd (List.append_eq_nil_iff.mp h).1 (hne a)
    | cons b bs =>
      rw [List.flatMap_cons, List.flatMap_cons] at h
      obtain rfl := hcode a b _ _ h
      rw [ih (List.append_cancel_left h)]

theorem literal_injective {s t : String} (h : literal s = literal t) : s = t := by
  have hread := readLiteral?_literal s
  rw [h, readLiteral?_literal t] at hread
  exact String.toList_inj.mp (Option.some.inj hread).symm

namespace Kind.TextBlock

theorem doublePercent_injective {s t : String} (h : doublePercent s = doublePercent t) : s = t := by
  have hchars : s.toList.flatMap (fun c => if c = '%' then ['%', '%'] else [c]) =
      t.toList.flatMap fun c => if c = '%' then ['%', '%'] else [c] := by
    simpa [doublePercent] using congrArg String.toList h
  refine String.toList_inj.mp (flatMap_injective (fun c => ?_) (fun c d as bs hcode => ?_) hchars)
  · grind
  · grind

theorem printFormat_injective {s t : String} {read : EntityRead} {precision : UInt8}
    (h : printFormat s read precision = printFormat t read precision) : s = t :=
  doublePercent_injective (String.append_left_inj _ |>.mp h)

end Kind.TextBlock

/-! ## Widgets that differ in one property -/

/-- A widget without one of its properties. -/
def Widget.without (key : String) (w : Widget) : Widget := { w with props := w.props.filter fun e => e.1 ≠ key }

theorem Table.lookup_filter_ne {α : Type} {key name : String} (hname : name ≠ key) (t : List (String × α)) :
    (t.filter fun e => e.1 ≠ key).lookup name = t.lookup name := by
  induction t with
  | nil => rfl
  | cons e t ih =>
    obtain ⟨k, v⟩ := e
    by_cases hk : k = key
    · have hne : (name == k) = false := by simpa [hk] using hname
      rw [List.filter_cons_of_neg (by simpa using hk), ih, List.lookup_cons, hne]
    · rw [List.filter_cons_of_pos (by simpa using hk), List.lookup_cons, List.lookup_cons, ih]

theorem Bag.find?_overlay_without {key name : String} (hname : name ≠ key) (base changes : Bag) :
    Table.find? (overlay base (changes.filter fun e => e.1 ≠ key)) name = Table.find? (overlay base changes) name := by
  have hcomm : (changes.filter fun e => e.1 ≠ key).filter (fun e => !e.2.isNull) =
      (changes.filter fun e => !e.2.isNull).filter fun e => e.1 ≠ key := List.filter_comm _ _ _
  rw [overlay_eq_foldl, overlay_eq_foldl, Table.find?_foldl_put, Table.find?_foldl_put, hcomm,
    ← List.filter_reverse, Table.lookup_filter_ne hname]

namespace Widget

variable {key : String} {w w' : Widget}

theorem entity?_without (hkey : "entity_id" ≠ key) (w : Widget) : (w.without key).entity? = w.entity? := by
  have hfound : Table.find? (w.without key).props "entity_id" = Table.find? w.props "entity_id" :=
    Table.lookup_filter_ne hkey w.props
  simp only [entity?, hfound]
  rfl

end Widget

/-- What is read of two widgets that differ in one property is related as the record says. -/
theorem Schema.related_of_read {P : Type} {schema : Schema P} {key : String} {R : P → P → Prop}
    (h : schema.record.Relates key R) {w w' : Widget} (hsame : w.without key = w'.without key) {p p' : P}
    (hp : schema.read w = .ok p) (hp' : schema.read w' = .ok p') : R p p' := by
  refine h.closed (fun name hname => ?_) (ofJson_of_read hp) (ofJson_of_read hp')
  have hprops : w.props.filter (fun e => e.1 ≠ key) = w'.props.filter fun e => e.1 ≠ key :=
    congrArg Widget.props hsame
  have hleft := Bag.find?_overlay_without hname schema.defaults w.props
  have hright := Bag.find?_overlay_without hname schema.defaults w'.props
  rw [hprops] at hleft
  exact hright.symm.trans hleft

namespace Kind.TextBlock

/-- Properties that differ in the text only. -/
theorem relates_text : schema.record.Relates "text" fun p p' => p' = { p with text := p'.text } := by
  refine ((((((((Record.Relates.map ?_ .any).seq (.other ?_)).seq (.other ?_)).seq (.other ?_)).seq
    (.other ?_)).seq (.other ?_)).seq (.other ?_)).seq (.other ?_)).seq (.other ?_)
  · rintro text text' - size _ rfl family _ rfl weight _ rfl italic _ rfl color _ rfl align _ rfl precision _ rfl
      opacity _ rfl
    rfl
  all_goals decide

end Kind.TextBlock

/-! ## What is shown -/

/-- The format of a drawing call, which stands after the place of the text. -/
def Call.format? (c : Call) : Option Json := (c.arguments[5]?).map Json.string

def Instruction.value? : Instruction → Option Json
  | .text d => some (.string d.value)
  | _ => none

/-- What the content of a widget shows: the formats of calls, the texts of nodes and the values of instructions. -/
def Content.shown (c : Content) : List Json :=
  (Call.ofLines c.statements).filterMap Call.format? ++ c.nodes.filterMap (RetainedNode.find? "text") ++
    c.instructions.filterMap Instruction.value?

namespace Kind.TextBlock

variable {w w' : Widget}

/-- How a target shows a text before a state. -/
def shownBefore (p : Props) (read : EntityRead) : Target → Json
  | .procedural => .string (literal (printFormat p.text read p.precision))
  | .retained => lambdaValue [stateLambda read p.precision]
  | .declarative _ => .string (p.text ++ stateTemplate read)

theorem gives_content {p : Props} (hp : schema.read w = .ok p) {read : EntityRead} (hread : entityRead? w = some read)
    (s : Setting) : Gives (fun c => c.shown = [shownBefore p read s.target]) (kind.content s w) := by
  unfold WidgetKind.content
  cases s.target with
  | procedural =>
    refine Gives.bind (gives_procedural hp s) fun lines hlines => .pure ?_
    obtain ⟨font, color, hlines⟩ := hlines
    simp [Content.shown, hlines, drawn, hread, Call.format?, shownBefore]
  | retained =>
    obtain ⟨n, hn, htext⟩ : ∃ n, retained s {} w = .ok [n] ∧ n.find? "text" = some (shownText p w) := by
      rw [retained, Schema.readForExport_eq hp]
      exact ⟨_, rfl, by simp [RetainedNode.putText, RetainedNode.find?_put_of_ne]⟩
    refine Gives.ofExcept_get_bind (fun _ => hn) (.pure ?_)
    simp [Content.shown, Call.ofLines, htext, shownText, hread, shownBefore]
  | declarative f =>
    obtain ⟨i, hi, hvalue⟩ : ∃ i, declarative s {} f w = .ok [i] ∧ i.value? = some (.string (shownTemplate p w)) := by
      rw [declarative, Schema.readForExport_eq hp]
      exact ⟨_, rfl, rfl⟩
    refine Gives.ofExcept_get_bind (fun _ => hi) (.pure ?_)
    simp [Content.shown, Call.ofLines, hvalue, shownTemplate, hread, shownBefore]

theorem shownBefore_injective {p p' : Props} {read : EntityRead} {t : Target} (ht : t ≠ .retained)
    (hprecision : p.precision = p'.precision) (h : shownBefore p read t = shownBefore p' read t) :
    p.text = p'.text := by
  cases t with
  | procedural =>
    have hformat := literal_injective (Json.string.inj h)
    rw [hprecision] at hformat
    exact printFormat_injective hformat
  | retained => exact absurd rfl ht
  | declarative f => exact String.append_left_inj _ |>.mp (Json.string.inj h)

theorem exists_entityRead? {entity : String} (h : w.entity? = some entity) : ∃ read, entityRead? w = some read := by
  obtain ⟨raw, -, hraw⟩ := Option.bind_eq_some_iff.mp h
  rw [entityRead?, h, Option.bind_some, EntityRead.of?, Entity.normalize?, nonBlank?_of_nonBlank? hraw]
  exact ⟨_, rfl⟩

/-- Two widgets of which a target always shows different things. -/
def AreShownApart (s : Setting) (w w' : Widget) : Prop :=
  ∃ shown shown', Gives (fun c => c.shown = shown) (kind.content s w) ∧
    Gives (fun c => c.shown = shown') (kind.content s w') ∧ shown ≠ shown'

/-- Two texts of one entity with different texts before the state are shown differently by the drawing code and by the
instructions of both flavors. -/
theorem shows_text_before_state (hsame : w.without "text" = w'.without "text") {p p' : Props}
    (hp : schema.read w = .ok p) (hp' : schema.read w' = .ok p') (htext : p.text ≠ p'.text) {entity : String}
    (hentity : w.entity? = some entity) (s : Setting) (ht : s.target ≠ .retained) : AreShownApart s w w' := by
  have hwithout : ∀ v : Widget, (v.without "text").entity? = v.entity? := Widget.entity?_without (by decide)
  have hentity' : w'.entity? = some entity := by rw [← hwithout, ← hsame, hwithout, hentity]
  obtain ⟨read, hread⟩ := exists_entityRead? hentity
  have hread' : entityRead? w' = some read := by rw [entityRead?, hentity', ← hentity, ← entityRead?, hread]
  have hprecision : p.precision = p'.precision := by
    rw [Schema.related_of_read relates_text hsame hp hp']
  refine ⟨_, _, gives_content hp hread s, gives_content hp' hread' s, fun hshown => htext ?_⟩
  exact shownBefore_injective ht hprecision (List.singleton_inj.mp hshown)

/-- A text before the temperature of a hall. -/
def hallText (text : String) : Widget :=
  { Widget.make "hall" "text" with entityId := some "sensor.hall", props := [("text", .string text)] }

theorem read_hallText (text : String) : schema.read (hallText text) = .ok { text } :=
  isRestorable.read_of_overlay (overlay_text text)

theorem shows_text_before_state_hall :
    (hallText "50% of ").without "text" = (hallText "50%% of ").without "text" ∧
      (hallText "50% of ").entity? = some "sensor.hall" ∧
      AreShownApart { target := .procedural, dark := false } (hallText "50% of ") (hallText "50%% of ") := by
  have hsame : (hallText "50% of ").without "text" = (hallText "50%% of ").without "text" := rfl
  have hentity : (hallText "50% of ").entity? = some "sensor.hall" := by decide +kernel
  refine ⟨hsame, hentity, ?_⟩
  exact shows_text_before_state hsame (read_hallText _) (read_hallText _) (by decide) hentity _ (by decide)

/-- A node shows the state only, so the text before it makes no difference there. -/
theorem not_forall_areShownApart :
    ¬ ∀ (s : Setting) (w w' : Widget) (p p' : Props) (entity : String), w.without "text" = w'.without "text" →
      schema.read w = .ok p → schema.read w' = .ok p' → p.text ≠ p'.text → w.entity? = some entity →
      AreShownApart s w w' := by
  intro h
  have hentity : ∀ text, (hallText text).entity? = some "sensor.hall" := fun text => by
    have hblank : nonBlank? "sensor.hall" = some "sensor.hall" := by decide +kernel
    rw [← hblank]
    rfl
  obtain ⟨read, hread⟩ := exists_entityRead? (hentity "Hall: ")
  have hread' : entityRead? (hallText "Attic: ") = some read := by
    rw [entityRead?, hentity, ← hentity "Hall: ", ← entityRead?, hread]
  obtain ⟨shown, shown', hshown, hshown', hne⟩ := h { target := .retained, dark := false } (hallText "Hall: ")
    (hallText "Attic: ") _ _ "sensor.hall" rfl (read_hallText _) (read_hallText _) (by decide) (hentity _)
  have hleft := hshown.unique (gives_content (read_hallText _) hread _)
  have hright := hshown'.unique (gives_content (read_hallText _) hread' _)
  exact hne (hleft.trans hright.symm)

end Kind.TextBlock

end Dashboard
