import Dashboard.Text.Blank
import Dashboard.Text.Word
/-!
# Words with blanks between them

Statements of the drawing code are recognised by a sequence of words, before each of which blanks
may stand. The readers answer with what is left of the text.
-/

namespace Dashboard.Text

/-- What follows a sequence of words. -/
def afterWords? : List String → List Char → Option (List Char)
  | [], cs => some cs
  | w :: ws, cs => (w.toList.isPrefixOf? (skipBlank cs)).bind (afterWords? ws)

/-- What follows at least one blank. -/
def afterBlank? : List Char → Option (List Char)
  | c :: cs => if isBlank c then some (skipBlank cs) else none
  | [] => none

/-- A run of decimal digits, blanks before it, and what follows it. -/
def decimals? (cs : List Char) : Option (List Char × List Char) :=
  let cs := skipBlank cs
  match cs.takeWhile isDecimal with
  | [] => none
  | digits => some (digits, cs.dropWhile isDecimal)

def onlyBlank (cs : List Char) : Bool := cs.all isBlank

end Dashboard.Text
