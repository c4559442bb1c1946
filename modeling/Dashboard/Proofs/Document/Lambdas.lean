import Dashboard.Kind.Label
import Dashboard.Proofs.Document.Referred
import Mathlib.Data.List.Basic
/-!
# What lambdas of the retained GUI read

A node names the font of its text, and the lambda of its text reads components. The code of a lambda stands
below its tag, or after it as a quoted text.
-/

namespace Dashboard

open Text Number

namespace RetainedNode

/-- The code of a lambda. -/
def codeOf (text : String) : String :=
  match "!lambda ".toList.isPrefixOf? text.toList with
  | some ('|' :: '-' :: '\n' :: code) => String.ofList code
  | some ('"' :: code) => String.ofList (readLiteralBody code.dropLast)
  | some code => String.ofList code
  | none => ""

/-- A component whose state the lambda of a node reads. -/
def Reads (n : RetainedNode) (id : String) : Prop :=
  ∃ text, n.props.find? "text" = some (.string text) ∧ .sensor id ∈ Statement.references (codeOf text)

theorem find?_put (key other : String) (value : Json) (n : RetainedNode) :
    (n.put key value).props.find? other = if other = key then some value else n.props.find? other := by
  split
  · rename_i h
    rw [h, put, Table.find?_put_self]
  · rename_i h
    rw [put, Table.find?_put_of_ne value n.props h]

theorem find?_putTextIf {key other : String} (h : other ≠ key) (value : Option String) (n : RetainedNode) :
    (n.putTextIf key value).props.find? other = n.props.find? other := by
  cases value with
  | none => rfl
  | some v => rw [putTextIf, putText, find?_put, if_neg h]

theorem find?_ofWidget {other : String} (h : other ∉ ["id", "x", "y", "width", "height"]) (tag : String)
    (w : Widget) : (ofWidget tag w).props.find? other = none := by
  simp only [List.mem_cons, not_or, List.not_mem_nil, not_false_eq_true, and_true] at h
  obtain ⟨hid, hx, hy, hwidth, hheight⟩ := h
  simp only [ofWidget, putText, putPixel, find?_put, if_neg hid, if_neg hx, if_neg hy, if_neg hwidth,
    if_neg hheight]
  rfl

theorem codeOf_block {text code : String} (h : text.toList = "!lambda |-\n".toList ++ code.toList) :
    codeOf text = code := by
  have hprefix : "!lambda ".toList.isPrefixOf? text.toList = some ('|' :: '-' :: '\n' :: code.toList) := by
    rw [h]
    rfl
  simp only [codeOf, hprefix, String.ofList_toList]

theorem codeOf_lambdaValue {line text : String} (h : lambdaValue [line] = .string text) :
    codeOf text = line := by
  refine codeOf_block ?_
  rw [← Json.string.inj h]
  simp [String.join]

/-- A visible character or a space. -/
def IsPrintable (c : Char) : Prop := 32 ≤ c.toNat ∧ c.toNat < 127

instance : DecidablePred IsPrintable := fun _ => inferInstanceAs (Decidable (_ ∧ _))

/-- A text that is quoted as it is in a literal, but for quotes and backslashes. -/
def ArePrintable (cs : List Char) : Prop := ∀ c ∈ cs, IsPrintable c

instance (cs : List Char) : Decidable (ArePrintable cs) := List.decidableBAll _ cs

theorem arePrintable_append {a b : List Char} :
    ArePrintable (a ++ b) ↔ ArePrintable a ∧ ArePrintable b := List.forall_mem_append

theorem quotedChar_eq {c : Char} (h : IsPrintable c) : quotedChar c = literalChar c := by
  obtain ⟨hlow, hhigh⟩ := h
  have hhidden : isHidden c = false := by
    have hascii : c.toNat < 128 := by omega
    rw [isHidden, if_pos hascii]
    simp
    omega
  have hcontrol : ∀ d : Char, d.toNat < 32 → c ≠ d := by
    rintro d hd rfl
    omega
  unfold quotedChar literalChar
  rw [if_neg (hcontrol _ (by decide)), if_neg (hcontrol _ (by decide)), if_neg (hcontrol _ (by decide)),
    if_neg (hcontrol _ (by decide)), hhidden]
  by_cases hquote : c = '"'
  · simp [hquote]
  · by_cases hslash : c = '\\'
    · simp [hslash]
    · simp [hquote, hslash, hcontrol '\n' (by decide), hcontrol '\r' (by decide)]

theorem quoted_eq_literal {s : String} (h : ArePrintable s.toList) : quoted s = literal s := by
  rw [quoted, literal, literalBody, List.flatMap_congr fun c hc => quotedChar_eq (h c hc)]

theorem codeOf_quoted {code : String} (h : ArePrintable code.toList) :
    codeOf ("!lambda " ++ quoted code) = code := by
  have hreturn : '\r' ∉ code.toList := fun hmem => absurd (h _ hmem) (by decide)
  have hprefix : "!lambda ".toList.isPrefixOf? ("!lambda " ++ quoted code).toList =
      some ('"' :: (literalBody code.toList ++ ['"'])) := by
    rw [quoted_eq_literal h, String.toList_append, literal, String.toList_ofList, String.toList_ofList]
    rfl
  simp only [codeOf, hprefix, List.dropLast_concat, readLiteralBody_literalBody hreturn,
    String.ofList_toList]

end RetainedNode

/-! ## Lambdas of states -/

namespace Kind

open Statement

variable {read : EntityRead}

theorem literalBody_eq {cs : List Char} (h : ∀ c ∈ cs, c ≠ '"' ∧ c ≠ '\\' ∧ c ≠ '\n' ∧ c ≠ '\r') :
    literalBody cs = cs := by
  have hchar : ∀ c ∈ cs, literalChar c = [c] := fun c hc => by
    simp [literalChar, h c hc]
  rw [literalBody, List.flatMap_congr hchar, List.flatMap_singleton']

theorem literal_format (precision : UInt8) :
    "\"" ++ ("%." ++ natText precision.toNat ++ "f") ++ "\"" =
      literal ("%." ++ natText precision.toNat ++ "f") := by
  have hplain : literalBody ("%." ++ natText precision.toNat ++ "f").toList =
      ("%." ++ natText precision.toNat ++ "f").toList := by
    refine literalBody_eq ?_
    simp only [String.toList_append, List.forall_mem_append]
    refine ⟨⟨by simp, fun c hc => ?_⟩, by simp⟩
    rw [natText, String.toList_ofList] at hc
    refine ⟨?_, ?_, ?_, ?_⟩
    all_goals
      rintro rfl
      exact not_mem_digitsOf (by decide) _ hc
  apply String.toList_inj.mp
  rw [literal, hplain]
  simp

theorem references_return {code : String} {cs : List Char} {rs : List Reference}
    (hs : code.toList = (['r', 'e', 't', 'u', 'r', 'n'] ++ ' ' :: cs) ++ [';'])
    (h : Brings .font cs rs) : references code = rs := by
  refine references_of_brings hs ?_ ?_ ?_ (by decide) (by decide) (by decide)
  · rw [hs]
    exact (Brings.mute (by decide)).blank h
  · rw [hs]
    exact skipBlank_cons (by decide) _
  · rw [hs]
    rfl

/-- The code that answers with the state of an entity reads the component of that entity. -/
theorem references_stateLambda (h : IsName read.id) (precision : UInt8) :
    references (stateLambda read precision) = [.sensor read.id] := by
  have hstate : Brings .font (stateArgument read).toList [.sensor read.id] := .stateArgument h
  unfold stateLambda
  cases hread : read.isText with
  | true =>
    rw [if_pos rfl]
    exact references_return (by simp) hstate
  | false =>
    have hend : Brings .font ([] ++ '.' :: "c_str()".toList) [] :=
      Brings.nil.symbol (by decide) (by decide) (by decide) (.quiet (by decide) (by decide))
    have harguments := (Brings.literal ("%." ++ natText precision.toNat ++ "f")).symbol (c := ',')
      (by decide) (by decide) (by decide)
      (Brings.nil.blank (hstate.symbol (c := ')') (by decide) (by decide) (by decide) hend))
    have hname : Brings .font "str_sprintf".toList [] := .mute (by decide)
    have hcall := hname.symbol (c := '(') (by decide) (by decide) (by decide) harguments
    rw [if_neg Bool.false_ne_true, stateFormat, hread, if_neg Bool.false_ne_true]
    refine references_return ?_ hcall
    rw [← literal_format]
    simp

theorem isPrintable_of_isNameChar {c : Char} (h : isNameChar c = true) : RetainedNode.IsPrintable c := by
  delta isNameChar Char.isAlphanum Char.isAlpha Char.isUpper Char.isLower Char.isDigit at h
  simp only [Bool.or_eq_true, Bool.and_eq_true, decide_eq_true_eq, beq_iff_eq, UInt32.le_iff_toNat_le,
    ge_iff_le] at h
  rcases h with ((h | h) | h) | rfl
  · exact ⟨Nat.le_trans (by decide) h.1, Nat.lt_of_le_of_lt h.2 (by decide)⟩
  · exact ⟨Nat.le_trans (by decide) h.1, Nat.lt_of_le_of_lt h.2 (by decide)⟩
  · exact ⟨Nat.le_trans (by decide) h.1, Nat.lt_of_le_of_lt h.2 (by decide)⟩
  · decide

theorem isNameChar_natText {n : Nat} {c : Char} (h : c ∈ (natText n).toList) : isNameChar c = true := by
  rw [natText, String.toList_ofList] at h
  simp [isNameChar, Char.isAlphanum, isDigit_of_mem_digitsOf h]

theorem isPrintable_stateLambda (h : IsName read.id) (precision : UInt8) :
    RetainedNode.ArePrintable (stateLambda read precision).toList := by
  have hname : RetainedNode.ArePrintable read.id.toList := fun c hc =>
    isPrintable_of_isNameChar (h.2 c hc)
  have hdigits : RetainedNode.ArePrintable (natText precision.toNat).toList := fun c hc =>
    isPrintable_of_isNameChar (isNameChar_natText hc)
  unfold stateLambda stateFormat stateArgument componentRef
  cases read.isText with
  | true =>
    simp only [if_true, String.toList_append, RetainedNode.arePrintable_append]
    refine ⟨⟨?_, ⟨⟨?_, hname⟩, ?_⟩, ?_⟩, ?_⟩
    all_goals decide
  | false =>
    simp only [Bool.false_eq_true, if_false, String.toList_append, RetainedNode.arePrintable_append]
    refine ⟨⟨⟨⟨?_, ⟨?_, hdigits⟩, ?_⟩, ?_⟩, ⟨⟨?_, hname⟩, ?_⟩, ?_⟩, ?_⟩
    all_goals decide

end Kind

end Dashboard
