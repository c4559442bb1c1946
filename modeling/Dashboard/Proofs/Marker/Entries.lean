import Dashboard.Marker.Line
import Dashboard.Proofs.Marker.Fields
import Dashboard.Proofs.Number.Numerals
import Dashboard.Proofs.Text.Lines
/-!
# The entries of a marker

A marker line is the kind of its widget followed by entries, each a key and a text. Numbers and truth
values need no quotes, so every text is written in the same way, and the whole line stays on its
line.
-/

namespace Dashboard.Marker

open Dashboard.Text Dashboard.Json Dashboard.Number

abbrev Entries := List (String × String)

def entryIf (key : String) (value : Option String) : Entries :=
  match value with
  | some v => [(key, v)]
  | none => []

def boundEntry (key : String) (bound : Option Binary64) : Entries :=
  entryIf key ((bound.filter Binary64.isFinite).map Binary64.documentText)

def conditionEntries (c : Condition) : Entries :=
  match c.entity? with
  | none => []
  | some entity =>
    ("cond_ent", entity) :: (entryIf "cond_op" (notBlank c.operator) ++
      entryIf "cond_state" c.state ++ boundEntry "cond_min" c.lowest ++ boundEntry "cond_max" c.highest)

/-- The text of a property, before it is quoted. -/
def textOf? : Json → Option String
  | .null => none
  | .bool b => some (if b then "true" else "false")
  | .number n => some n.text
  | .string s => some s
  | v => some v.compact

def propEntry (aliases : Aliases) (prop : String × Json) : Entries :=
  entryIf (aliases.keyOf prop.1) (textOf? prop.2)

/-- The entries that describe the widget itself. -/
def headEntries (w : Widget) : Entries :=
  [("id", w.id), ("type", w.kind), ("x", intText w.rect.x.toInt), ("y", intText w.rect.y.toInt),
    ("w", intText w.rect.width.toInt), ("h", intText w.rect.height.toInt)] ++
  entryIf "title" (notBlank w.title) ++ entryIf "ent" (notBlank w.entityId) ++
  entryIf "ent2" (notBlank w.secondEntityId) ++ conditionEntries w.condition

def propEntries (props : Bag) (aliases : Aliases) : Entries := props.flatMap (propEntry aliases)

def entries (w : Widget) (props : Bag) (aliases : Aliases) : Entries :=
  headEntries w ++ propEntries props aliases

/-- Entries as they are written. -/
def writtenEntries (es : Entries) : String :=
  String.join (es.map fun e => written e.1 (encodeText e.2))

theorem writtenEntries_append (es fs : Entries) :
    writtenEntries (es ++ fs) = writtenEntries es ++ writtenEntries fs := by
  rw [writtenEntries, List.map_append, String.join_append]
  rfl

theorem writtenEntries_cons (e : String × String) (es : Entries) :
    writtenEntries (e :: es) = written e.1 (encodeText e.2) ++ writtenEntries es :=
  String.join_cons

theorem writtenEntries_nil : writtenEntries [] = "" := String.join_nil

theorem writtenEntries_entryIf (key : String) (value : Option String) :
    writtenEntries (entryIf key value) = writtenIf key value := by
  cases value with
  | none => exact writtenEntries_nil
  | some v => rw [entryIf, writtenEntries_cons, writtenEntries_nil, String.append_empty, writtenIf]

/-! ## Texts that need no quotes -/

theorem encodeText_of_numeral {s : String} (hne : s.toList ≠ [])
    (h : ∀ c ∈ s.toList, IsNumeralChar c) : encodeText s = s := by
  have hplain : needsQuotes s.toList = false := by
    simp only [needsQuotes, Bool.or_eq_false_iff, List.isEmpty_eq_false_iff, List.any_eq_false,
      Bool.or_eq_true, beq_iff_eq, not_or]
    refine ⟨hne, fun c hc => ?_⟩
    rcases h c hc with hdigit | hsign
    · have hblank := isBlank_of_isDigit hdigit
      refine ⟨⟨⟨by simp [hblank], ?_⟩, ?_⟩, ?_⟩ <;> · rintro rfl; exact absurd hdigit (by decide)
    · simp only [List.mem_cons, List.not_mem_nil, or_false] at hsign
      rcases hsign with rfl | rfl | rfl | rfl <;> decide
  rw [encodeText, encodeChars, hplain, if_neg Bool.false_ne_true, String.ofList_toList]

theorem encodeText_intText (i : Int) : encodeText (intText i) = intText i :=
  encodeText_of_numeral (intText_ne_nil i) fun _ => isNumeralChar_intText

theorem encodeText_documentText (x : Binary64) : encodeText x.documentText = x.documentText := by
  cases hx : x.isFinite with
  | true =>
    exact encodeText_of_numeral x.documentText_ne_nil fun _ => Binary64.isNumeralChar_documentText hx
  | false =>
    cases x with
    | finite s m e h => exact absurd hx (by simp [Binary64.isFinite])
    | infinite s => exact (by decide : encodeText "null" = "null")
    | nan => exact (by decide : encodeText "null" = "null")

theorem encodeText_numeral (n : Numeral) : encodeText n.text = n.text := by
  cases n with
  | whole i => exact encodeText_intText i
  | real x => exact encodeText_documentText x

theorem writtenProp_eq (aliases : Aliases) (prop : String × Json) :
    writtenEntries (propEntry aliases prop) = writtenProp aliases prop := by
  have hvalue : encodeValue? prop.2 = (textOf? prop.2).map encodeText := by
    cases prop.2 with
    | null => rfl
    | bool b => cases b <;> decide
    | number n => exact congrArg some (encodeText_numeral n).symm
    | string s => rfl
    | array vs => rfl
    | object fs => rfl
  rw [propEntry, writtenEntries_entryIf, writtenProp, hvalue]
  cases textOf? prop.2 <;> rfl

theorem writtenBound_eq (key : String) (bound : Option Binary64) :
    writtenEntries (boundEntry key bound) = writtenBound key bound := by
  rw [boundEntry, writtenEntries_entryIf]
  cases bound with
  | none => rfl
  | some x =>
    cases hx : x.isFinite with
    | true => simp [Option.filter, hx, writtenIf, writtenBound, encodeText_documentText]
    | false => simp [Option.filter, hx, writtenIf, writtenBound]

theorem writtenCondition_eq (c : Condition) :
    writtenEntries (conditionEntries c) = writtenCondition c := by
  unfold conditionEntries writtenCondition
  cases c.entity? with
  | none => exact writtenEntries_nil
  | some entity =>
    simp only [writtenEntries_cons, writtenEntries_append, writtenEntries_entryIf, writtenBound_eq,
      String.append_assoc]

theorem encode_eq (w : Widget) (props : Bag) (aliases : Aliases) :
    encode w props aliases =
      "// widget:" ++ (w.kind ++ writtenEntries (entries w props aliases)) := by
  have hprops : String.join (props.map (writtenProp aliases)) =
      writtenEntries (propEntries props aliases) := by
    unfold propEntries
    induction props with
    | nil => exact writtenEntries_nil.symm
    | cons prop props ih =>
      rw [List.map_cons, String.join_cons, List.flatMap_cons, writtenEntries_append, writtenProp_eq, ih]
  unfold encode
  rw [hprops]
  simp only [entries, headEntries, List.cons_append, List.nil_append, writtenEntries_cons,
    writtenEntries_append, writtenEntries_entryIf, writtenCondition_eq, encodeText_intText,
    String.append_assoc]

end Dashboard.Marker
