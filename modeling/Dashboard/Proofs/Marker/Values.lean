import Dashboard.Proofs.Marker.Entries
/-!
# Written values are read back

A property is read by the kind of its default value. What a text, a truth value or a whole number was
written as is read as itself by a template of the same kind.
-/

namespace Dashboard.Marker

open Dashboard.Text Dashboard.Json Dashboard.Number

/-- Values of the same kind: texts, truth values, or whole numbers of 64 bits. -/
inductive Matches : Json → Json → Prop where
  | string (template s : String) : Matches (.string template) (.string s)
  | bool (template b : Bool) : Matches (.bool template) (.bool b)
  | whole (template : Numeral) {i : Int} (low : lowestOf 64 ≤ i) (high : i ≤ highestOf 64) :
      Matches (.number template) (.number (.whole i))

theorem isBlank_of_isNumeralChar {c : Char} (h : IsNumeralChar c) : isBlank c = false := by
  rcases h with hdigit | hsign
  · exact isBlank_of_isDigit hdigit
  · simp only [List.mem_cons, List.not_mem_nil, or_false] at hsign
    rcases hsign with rfl | rfl | rfl | rfl <;> decide

theorem trimChars_intText (i : Int) : trimChars (intText i).toList = (intText i).toList :=
  trimChars_eq fun _ hc => isBlank_of_isNumeralChar (isNumeralChar_intText hc)

theorem trimChars_documentText {x : Binary64} (hx : x.isFinite = true) :
    trimChars x.documentText.toList = x.documentText.toList :=
  trimChars_eq fun _ hc => isBlank_of_isNumeralChar (Binary64.isNumeralChar_documentText hx hc)

theorem readNumeral?_intText {i : Int} (low : lowestOf 64 ≤ i) (high : i ≤ highestOf 64) :
    readNumeral? (intText i) = some (.whole i) := by
  have hread : readInt64? (intText i).toList = some i := readInt?_intText low high
  simp only [readNumeral?, trimChars_intText, hread]

theorem Matches.decodeValue? {template v : Json} (h : Matches template v) :
    ∃ raw, textOf? v = some raw ∧ decodeValue? raw (some template) = some v := by
  cases h with
  | string template s => exact ⟨s, rfl, rfl⟩
  | bool template b =>
    cases b with
    | true => exact ⟨"true", rfl, congrArg (Option.map Json.bool) (by decide : readBool? "true" = some true)⟩
    | false =>
      exact ⟨"false", rfl, congrArg (Option.map Json.bool) (by decide : readBool? "false" = some false)⟩
  | whole template low high =>
    exact ⟨_, rfl, congrArg (Option.map Json.number) (readNumeral?_intText low high)⟩

theorem Matches.isNull {template v : Json} (h : Matches template v) : v.isNull = false := by
  cases h <;> rfl

end Dashboard.Marker
