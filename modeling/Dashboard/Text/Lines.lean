/-!
# Lines of a text

A line ends at a line feed, which takes one carriage return before it along. The last line needs
no line feed, and then a carriage return at its end belongs to the line.
-/

namespace Dashboard.Text

def lineChars : List Char → List (List Char)
  | [] => []
  | '\n' :: cs => [] :: lineChars cs
  | '\r' :: '\n' :: cs => [] :: lineChars cs
  | c :: cs =>
    match lineChars cs with
    | [] => [[c]]
    | l :: ls => (c :: l) :: ls

def lines (s : String) : List String := (lineChars s.toList).map String.ofList

theorem lineChars_append {line : List Char} (h : '\n' ∉ line) (hr : line.getLast? ≠ some '\r')
    (rest : List Char) : lineChars (line ++ '\n' :: rest) = line :: lineChars rest := by
  induction line with
  | nil => rfl
  | cons c cs ih =>
    have hc : c ≠ '\n' := fun he => h (he ▸ List.mem_cons_self)
    have hcs : '\n' ∉ cs := fun hm => h (List.mem_cons_of_mem c hm)
    cases cs with
    | nil => simp_all [lineChars]
    | cons d ds =>
      have hd : d ≠ '\n' := fun he => hcs (he ▸ List.mem_cons_self)
      have hlast : (d :: ds).getLast? ≠ some '\r' := by simpa using hr
      have := ih hcs hlast
      simp only [List.cons_append] at this ⊢
      rw [lineChars]
      · simp [this]
      · exact hc
      · intro cs' _ he
        exact hd (List.cons.inj he).1

/-- The text of a list of lines, each closed by a line feed. -/
def unlines (ls : List String) : String := String.join (ls.map (· ++ "\n"))

end Dashboard.Text
