import Dashboard.Text.CLiteral
/-!
# Literals of code

The reader here is the one of the language: an unescaped quote ends the literal, a line break inside it is
an error, and a backslash begins an escape. What is written as a literal is read back as it was.
-/

namespace Dashboard.Text

/-- The character that an escape of one letter stands for. -/
def escaped? : Char → Option Char
  | 'a' => some '\x07'
  | 'b' => some '\x08'
  | 'f' => some '\x0c'
  | 'n' => some '\n'
  | 'r' => some '\r'
  | 't' => some '\t'
  | 'v' => some '\x0b'
  | '\\' => some '\\'
  | '"' => some '"'
  | '\'' => some '\''
  | '?' => some '?'
  | _ => none

/-- A literal from its first quote on, which ends at the next one and nothing comes after it. -/
def readClosed? : List Char → Option (List Char)
  | [] => none
  | '"' :: cs => if cs = [] then some [] else none
  | '\\' :: [] => none
  | '\\' :: e :: cs => (escaped? e).bind fun c => (readClosed? cs).map (c :: ·)
  | c :: cs => if c = '\n' ∨ c = '\r' then none else (readClosed? cs).map (c :: ·)

def readLiteral? : List Char → Option (List Char)
  | '"' :: cs => readClosed? cs
  | _ => none

theorem readClosed?_literalChar (c : Char) (rest : List Char) :
    readClosed? (literalChar c ++ rest) = (readClosed? rest).map (c :: ·) := by
  unfold literalChar
  split
  · subst_vars; rfl
  · split
    · subst_vars; rfl
    · split
      · subst_vars; rfl
      · split
        · subst_vars; rfl
        · rename_i hquote hslash hfeed hreturn
          rw [List.singleton_append, readClosed?]
          · rw [if_neg fun h => h.elim hfeed hreturn]
          · exact hquote
          · exact fun h _ => hslash h
          · exact fun e cs h _ => hslash h

theorem readClosed?_literalBody (cs : List Char) : readClosed? (literalBody cs ++ ['"']) = some cs := by
  induction cs with
  | nil => rfl
  | cons c cs ih =>
    rw [literalBody, List.flatMap_cons, List.append_assoc, readClosed?_literalChar, ← literalBody, ih]
    rfl

theorem readLiteral?_literal (s : String) : readLiteral? (literal s).toList = some s.toList := by
  rw [literal, String.toList_ofList]
  exact readClosed?_literalBody s.toList

end Dashboard.Text
