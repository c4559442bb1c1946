import Dashboard.Proofs.Rebuild.Statements
/-!
# Names of pages in comments

The comment above a page carries its name as a literal of code. The reader of the name knows the escape
of a line feed; before any other character it drops the backslash, which is right for quotes and
backslashes but leaves the letter of an escaped carriage return.
-/

namespace Dashboard

open Text Statement

namespace Text

/-- What a character of a text is read back as. -/
def readBack (c : Char) : Char := if c = '\r' then 'r' else c

@[simp] theorem readBack_return : readBack '\r' = 'r' := rfl

theorem readBack_eq_iff (c : Char) : readBack c = c ↔ c ≠ '\r' := by
  by_cases h : c = '\r'
  · subst h
    simp
  · simp [readBack, h]

theorem readLiteralBody_readBack (c : Char) (rest : List Char) :
    readLiteralBody (literalChar c ++ rest) = readBack c :: readLiteralBody rest := by
  by_cases h : c = '\r'
  · subst h
    rfl
  · rw [readLiteralBody_literalChar h, (readBack_eq_iff c).2 h]

theorem readLiteralBody_eq_map (cs : List Char) :
    readLiteralBody (literalBody cs) = cs.map readBack := by
  induction cs with
  | nil => rfl
  | cons c cs ih =>
    rw [literalBody, List.flatMap_cons, readLiteralBody_readBack, List.map_cons]
    exact congrArg (readBack c :: ·) ih

theorem map_readBack_eq_iff (cs : List Char) : cs.map readBack = cs ↔ '\r' ∉ cs := by
  induction cs with
  | nil => simp
  | cons c cs ih =>
    rw [List.map_cons, List.cons.injEq, readBack_eq_iff, ih, List.mem_cons, not_or]
    exact and_congr_left' ne_comm

end Text

namespace Statement

/-- A page name is read from its comment whatever it is, and it is read as it was exactly when no carriage
return stands in it. -/
theorem pageName?_literal (indent : Nat) (name : String) :
    ∃ back, pageName? (spaces indent ++ "// page:name " ++ literal name).toList = some back ∧
      back.toList = name.toList.map readBack ∧ (back = name ↔ '\r' ∉ name.toList) := by
  have hline : (spaces indent ++ "// page:name " ++ literal name).toList = List.replicate indent ' ' ++
      ("// page:name \"".toList ++ (literalBody name.toList ++ ['"'])) := by
    simp [spaces, literal]
  refine ⟨String.ofList (readLiteralBody (literalBody name.toList)), ?_, ?_, ?_⟩
  · rw [hline, pageName?_indent, pageName?_quoted]
  · rw [String.toList_ofList, readLiteralBody_eq_map]
  · rw [readLiteralBody_eq_map, ← map_readBack_eq_iff, ← String.toList_inj, String.toList_ofList]

theorem not_forall_pageName?_literal :
    ¬ ∀ name : String, '\t' ∉ name.toList →
      pageName? ("// page:name " ++ literal name).toList = some name := by
  intro h
  exact absurd (h "a\rb" (by decide)) (by decide +kernel)

end Statement

end Dashboard
