/-!
# String literals of the drawing code

A literal stands between double quotes; quotes, backslashes and the two line break characters in
it are escaped. The reader of a literal's body is lenient: a backslash before any character but
`n` stands for that character. Reading gives back every text without carriage returns.
-/

namespace Dashboard.Text

def literalChar (c : Char) : List Char :=
  if c = '"' then ['\\', '"']
  else if c = '\\' then ['\\', '\\']
  else if c = '\n' then ['\\', 'n']
  else if c = '\r' then ['\\', 'r']
  else [c]

def literalBody (cs : List Char) : List Char := cs.flatMap literalChar

def literal (s : String) : String := String.ofList ('"' :: literalBody s.toList ++ ['"'])

def readLiteralBody : List Char → List Char
  | [] => []
  | ['\\'] => ['\\']
  | '\\' :: 'n' :: cs => '\n' :: readLiteralBody cs
  | '\\' :: c :: cs => c :: readLiteralBody cs
  | c :: cs => c :: readLiteralBody cs

theorem readLiteralBody_literalChar {c : Char} (h : c ≠ '\r') (rest : List Char) :
    readLiteralBody (literalChar c ++ rest) = c :: readLiteralBody rest := by
  unfold literalChar
  split
  · simp_all [readLiteralBody]
  · split
    · simp_all [readLiteralBody]
    · split
      · simp_all [readLiteralBody]
      · simp_all [readLiteralBody]

theorem readLiteralBody_literalBody {cs : List Char} (h : '\r' ∉ cs) :
    readLiteralBody (literalBody cs) = cs := by
  induction cs with
  | nil => rfl
  | cons c cs ih =>
    have hc : c ≠ '\r' := fun he => h (he ▸ List.mem_cons_self)
    have hcs : '\r' ∉ cs := fun hm => h (List.mem_cons_of_mem c hm)
    rw [literalBody, List.flatMap_cons, readLiteralBody_literalChar hc]
    exact congrArg (c :: ·) (ih hcs)

end Dashboard.Text
