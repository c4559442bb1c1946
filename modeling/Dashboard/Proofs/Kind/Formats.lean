import Dashboard.Proofs.Kind.Prefixes
/-!
# Formats of printing calls

A text before a state is drawn by a call that prints a format. The reader here is the one of printing: it
takes the characters of the format up to its end, a percent sign begins a conversion, which its letter ends,
and two percent signs are one character. The format of a text reads as the text, character by character, and
the one conversion of the state.
-/

namespace Dashboard

open Text Number Emission Statement

/-- One step of printing: a character as it is, or the next argument as a conversion asks for it. -/
inductive Directive where
  | char (c : Char)
  /-- A conversion, by what follows its percent sign. -/
  | conversion (spec : String)
deriving DecidableEq, Repr

namespace Directive

/-- Flags, widths, precisions and lengths, which stand before the letter of a conversion. -/
def isModifier (c : Char) : Bool := c.isDigit || "-+ #.*hlLqjzt".toList.contains c

def letters : List Char := "diouxXeEfFgGaAcspn".toList

/-- The steps that a format stands for. The first argument is what was read of an open conversion. -/
def readFrom : Option (List Char) → List Char → Option (List Directive)
  | none, [] => some []
  | some _, [] => none
  | none, c :: cs => if c = '%' then readFrom (some []) cs else (readFrom none cs).map (char c :: ·)
  | some spec, c :: cs =>
    if c = '%' ∧ spec = [] then (readFrom none cs).map (char c :: ·)
    else if c ∈ letters then (readFrom none cs).map (conversion (String.ofList (spec ++ [c])) :: ·)
    else if isModifier c then readFrom (some (spec ++ [c])) cs
    else none

def ofFormat? (cs : List Char) : Option (List Directive) := readFrom none cs

example : ofFormat? "5%% of %-8.2lf".toList =
    some ("5% of ".toList.map char ++ [conversion "-8.2lf"]) := by decide +kernel

theorem not_isModifier_of_mem_letters {c : Char} (h : c ∈ letters) : c ≠ '%' ∧ isModifier c = false := by
  have hall : (letters.all fun c => c != '%' && !isModifier c) = true := by decide
  simpa using List.all_eq_true.mp hall c h

theorem readFrom_letter {c : Char} (hc : c ∈ letters) (spec rest : List Char) :
    readFrom (some spec) (c :: rest) =
      (readFrom none rest).map (conversion (String.ofList (spec ++ [c])) :: ·) := by
  rw [readFrom, if_neg fun h => (not_isModifier_of_mem_letters hc).1 h.1, if_pos hc]

theorem readFrom_modifier {c : Char} (hc : isModifier c = true) (spec rest : List Char) :
    readFrom (some spec) (c :: rest) = readFrom (some (spec ++ [c])) rest := by
  have hpercent : c ≠ '%' := fun h => absurd (h ▸ hc) (by decide)
  have hletter : c ∉ letters := fun h => absurd hc (by simp [(not_isModifier_of_mem_letters h).2])
  rw [readFrom, if_neg fun h => hpercent h.1, if_neg hletter, if_pos hc]

theorem readFrom_modifiers {cs : List Char} (h : ∀ c ∈ cs, isModifier c = true) (spec rest : List Char) :
    readFrom (some spec) (cs ++ rest) = readFrom (some (spec ++ cs)) rest := by
  induction cs generalizing spec with
  | nil => simp
  | cons c cs ih =>
    obtain ⟨hc, hcs⟩ := List.forall_mem_cons.mp h
    rw [List.cons_append, readFrom_modifier hc, ih hcs, List.append_assoc, List.singleton_append]

end Directive

namespace Kind.TextBlock

open Directive

/-- A text with its percent signs doubled prints as itself. -/
theorem readFrom_doublePercent (s : String) (rest : List Char) :
    readFrom none ((doublePercent s).toList ++ rest) = (readFrom none rest).map (s.toList.map char ++ ·) := by
  rw [doublePercent, String.toList_ofList]
  induction s.toList with
  | nil => simp
  | cons c cs ih =>
    rw [List.flatMap_cons, List.append_assoc, List.map_cons]
    by_cases hc : c = '%'
    · subst hc
      change (readFrom none (_ ++ rest)).map (char '%' :: ·) = _
      rw [ih, Option.map_map]
      rfl
    · rw [if_neg hc, List.singleton_append, readFrom, if_neg hc, ih, Option.map_map]
      rfl

/-- The conversion of a state: a text as it is, a number with so many places. -/
def stateConversion (read : EntityRead) (precision : UInt8) : Directive :=
  conversion (if read.isText then "s" else "." ++ natText precision.toNat ++ "f")

theorem ofFormat?_stateFormat (read : EntityRead) (precision : UInt8) :
    ofFormat? (stateFormat read precision).toList = some [stateConversion read precision] := by
  unfold stateFormat stateConversion
  cases read.isText with
  | true =>
    rw [if_pos rfl, if_pos rfl]
    decide
  | false =>
    have hdigits : ∀ c ∈ digitsOf precision.toNat, isModifier c = true := fun c hc => by
      rw [isModifier, isDigit_of_mem_digitsOf hc, Bool.true_or]
    have hformat : ("%." ++ natText precision.toNat ++ "f").toList =
        '%' :: '.' :: (digitsOf precision.toNat ++ ['f']) := by simp [natText]
    have hspec : "." ++ natText precision.toNat ++ "f" =
        String.ofList ('.' :: (digitsOf precision.toNat ++ ['f'])) := by
      simp [← String.toList_inj, natText]
    rw [if_neg Bool.false_ne_true, if_neg Bool.false_ne_true, hformat, hspec, ofFormat?, readFrom, if_pos rfl,
      readFrom_modifier (by decide), readFrom_modifiers hdigits, readFrom_letter (by decide)]
    rfl

theorem ofFormat?_printFormat (text : String) (read : EntityRead) (precision : UInt8) :
    ofFormat? (printFormat text read precision).toList =
      some (text.toList.map char ++ [stateConversion read precision]) := by
  rw [printFormat, String.toList_append, ofFormat?, readFrom_doublePercent, ← ofFormat?, ofFormat?_stateFormat,
    Option.map_some]

/-- A printing call with a format and an argument after its place. The format is a closed literal on one line that
stands for certain steps. -/
structure IsPrinting (c : Call) (lit argument : String) (steps : List Directive) : Prop where
  name : c.name = "printf"
  arguments : c.arguments.drop 5 = [lit, argument]
  oneLine : OneLine lit
  reads : (readLiteral? lit.toList).bind ofFormat? = some steps

theorem isPrinting_drawn {w : Widget} {read : EntityRead} (hread : entityRead? w = some read) (p : Props)
    (font color : String) :
    IsPrinting (drawn p w font color) (literal (printFormat p.text read p.precision)) (stateArgument read)
      (p.text.toList.map char ++ [stateConversion read p.precision]) where
  name := by rw [drawn, hread]
  arguments := by
    rw [drawn, hread]
    rfl
  oneLine := .literal _
  reads := by rw [readLiteral?_literal, Option.bind_some, ofFormat?_printFormat]

/-- A text widget of an entity is drawn by one printing call, and the format of the call stands for the characters of
the text, whatever they are, and after them the conversion of the state. -/
theorem procedural_prints_text {w : Widget} {p : Props} (hp : schema.read w = .ok p) {entity : String}
    (hentity : w.entity? = some entity) (s : Setting) :
    ∃ read, EntityRead.of? entity = some read ∧ Gives (fun lines => ∃ call lit, Call.ofLines lines = [call] ∧
      IsPrinting call lit (stateArgument read) (p.text.toList.map char ++ [stateConversion read p.precision]))
        (procedural s w) := by
  obtain ⟨read, hread⟩ := exists_entityRead? hentity
  have hof : EntityRead.of? entity = some read := by rw [← hread, entityRead?, hentity, Option.bind_some]
  refine ⟨read, hof, (gives_procedural hp s).mono fun lines hlines => ?_⟩
  obtain ⟨font, color, hlines⟩ := hlines
  exact ⟨_, _, hlines, isPrinting_drawn hread p font color⟩

theorem procedural_prints_text_hall :
    (hallText "100% \"of\"\r\n%d\\ ").entity? = some "sensor.hall" ∧
      Gives (fun lines => ∃ call lit, Call.ofLines lines = [call] ∧ IsPrinting call lit "id(sensor_hall).state"
        ("100% \"of\"\r\n%d\\ ".toList.map char ++ [conversion ".1f"]))
          (procedural { target := .procedural, dark := false } (hallText "100% \"of\"\r\n%d\\ ")) := by
  have hentity : (hallText "100% \"of\"\r\n%d\\ ").entity? = some "sensor.hall" := by decide +kernel
  have hof : EntityRead.of? "sensor.hall" = some ⟨"sensor.hall", "sensor_hall", false⟩ := by decide +kernel
  have hargument : stateArgument ⟨"sensor.hall", "sensor_hall", false⟩ = "id(sensor_hall).state" := by decide +kernel
  have hconversion : stateConversion ⟨"sensor.hall", "sensor_hall", false⟩ 1 = conversion ".1f" := by decide +kernel
  refine ⟨hentity, ?_⟩
  obtain ⟨read, hread, hprints⟩ := procedural_prints_text (read_hallText _) hentity _
  obtain rfl := Option.some.inj (hread.symm.trans hof)
  rw [hargument, hconversion] at hprints
  exact hprints

end Kind.TextBlock

end Dashboard
