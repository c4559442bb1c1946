/-!
# Blank characters and trimming

The blank characters are those with the white space property: the five controls from tab to
carriage return, the space, the next-line control and the space separators beyond ASCII.
Trimming removes the longest blank stretch at an end and nothing else.
-/

namespace Dashboard.Text

def isBlank (c : Char) : Bool :=
  let n := c.toNat
  n == 0x20 || (0x09 ≤ n && n ≤ 0x0D) || n == 0x85 || n == 0xA0 || n == 0x1680 ||
    (0x2000 ≤ n && n ≤ 0x200A) || n == 0x2028 || n == 0x2029 || n == 0x202F || n == 0x205F ||
    n == 0x3000

def skipBlank (cs : List Char) : List Char := cs.dropWhile isBlank

def dropBlankEnd (cs : List Char) : List Char := (skipBlank cs.reverse).reverse

def trimChars (cs : List Char) : List Char := dropBlankEnd (skipBlank cs)

def trim (s : String) : String := String.ofList (trimChars s.toList)

def isBlankText (s : String) : Bool := s.toList.all isBlank

/-- A text with something in it: its trimmed form, unless that is empty. -/
def nonBlank? (s : String) : Option String :=
  let t := trim s
  if t.isEmpty then none else some t

end Dashboard.Text
