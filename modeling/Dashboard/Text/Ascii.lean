/-!
# ASCII letters and parts of a text

Case is folded for the letters a to z only; every other character stays as it is. The finders
below answer with what is left of the text, so that nothing has to be cut by position.
-/

namespace Dashboard.Text

def upper (s : String) : String := String.ofList (s.toList.map Char.toUpper)

def lower (s : String) : String := String.ofList (s.toList.map Char.toLower)

/-- Two texts that differ at most in the case of ASCII letters. -/
def sameLetters (s t : String) : Bool := lower s == lower t

def contains (part : List Char) : List Char → Bool
  | [] => part.isEmpty
  | c :: cs => part.isPrefixOf (c :: cs) || contains part cs

def afterStart? (start s : String) : Option String :=
  (start.toList.isPrefixOf? s.toList).map String.ofList

def startsWith (start s : String) : Bool := start.toList.isPrefixOf s.toList

/-- The text before its last character, if that character is `c`. -/
def beforeLast? (c : Char) (s : List Char) : Option (List Char) :=
  match s.reverse with
  | [] => none
  | d :: front => if d = c then some front.reverse else none

/-- The fields of a text that is cut at every occurrence of `c`. -/
def fields (c : Char) : List Char → List (List Char)
  | [] => [[]]
  | d :: ds =>
    match fields c ds with
    | [] => [[d]]
    | f :: fs => if d = c then [] :: f :: fs else (d :: f) :: fs

def joined (separator : String) (parts : List String) : String := separator.intercalate parts

def spaces (n : Nat) : String := String.ofList (List.replicate n ' ')

end Dashboard.Text
