import Dashboard.Text.Blank
import Dashboard.Text.Ascii
import Dashboard.Table
/-!
# The text of a marker

A marker lists fields as `key:value`. A value that is empty or holds a blank, a colon, a quote or a
backslash is written between quotes. Hand-written values may go unquoted: such a value ends where a
blank is followed by the next key. Words that are no field are passed over.
-/

namespace Dashboard.Marker

open Dashboard.Text

def isKeyChar (c : Char) : Bool := c.isAlphanum || c == '_'

def needsQuotes (cs : List Char) : Bool :=
  cs.isEmpty || cs.any fun c => isBlank c || c == ':' || c == '"' || c == '\\'

def escapeChar (c : Char) : List Char :=
  if c = '"' || c = '\\' then ['\\', c]
  else if c = '\n' then ['\\', 'n']
  else if c = '\r' then ['\\', 'r']
  else [c]

def encodeChars (cs : List Char) : List Char :=
  if needsQuotes cs then '"' :: cs.flatMap escapeChar ++ ['"'] else cs

def encodeText (s : String) : String := String.ofList (encodeChars s.toList)

def unescapeChar (c : Char) : Char := if c = 'n' then '\n' else if c = 'r' then '\r' else c

def push (c : Char) (r : List Char × List Char) : List Char × List Char := (c :: r.1, r.2)

/-- A value up to its closing quote, and what follows the quote. -/
def quotedValue : List Char → List Char × List Char
  | [] => ([], [])
  | ['\\'] => (['\\'], [])
  | '\\' :: c :: cs => push (unescapeChar c) (quotedValue cs)
  | '"' :: cs => ([], cs)
  | c :: cs => push c (quotedValue cs)

theorem quotedValue_escapeChar (c : Char) (rest : List Char) :
    quotedValue (escapeChar c ++ rest) = push c (quotedValue rest) := by
  unfold escapeChar
  split
  · simp_all [quotedValue, unescapeChar]
    grind
  · split
    · simp_all [quotedValue, unescapeChar]
    · split
      · simp_all [quotedValue, unescapeChar]
      · simp_all [quotedValue]

theorem quotedValue_escaped (cs rest : List Char) :
    quotedValue (cs.flatMap escapeChar ++ '"' :: rest) = (cs, rest) := by
  induction cs with
  | nil => rfl
  | cons c cs ih => rw [List.flatMap_cons, List.append_assoc, quotedValue_escapeChar, ih, push]

/-- Whether the next word, blanks apart, is a key with its colon. -/
def keyFollows (cs : List Char) : Bool :=
  let cs := skipBlank cs
  match cs.takeWhile isKeyChar, cs.dropWhile isKeyChar with
  | _ :: _, ':' :: _ => true
  | _, _ => false

def plainValue : List Char → List Char × List Char
  | [] => ([], [])
  | c :: cs => if isBlank c && keyFollows (c :: cs) then ([], c :: cs) else push c (plainValue cs)

def value : List Char → List Char × List Char
  | '"' :: cs => quotedValue cs
  | cs => let (v, rest) := plainValue cs; (trimChars v, rest)

/-- The fields of a text, at most as many as the first argument says. -/
def fieldsWithin : Nat → List Char → List (List Char × List Char)
  | 0, _ => []
  | n + 1, cs =>
    let cs := skipBlank cs
    match cs.takeWhile isKeyChar, cs.dropWhile isKeyChar with
    | key@(_ :: _), ':' :: rest =>
      let (v, rest) := value rest
      (key, v) :: fieldsWithin n rest
    | _, [] => []
    | _, rest => fieldsWithin n (rest.dropWhile fun c => !isBlank c)

def fieldChars (cs : List Char) : List (List Char × List Char) := fieldsWithin (cs.length + 1) cs

def fieldsOf (cs : List Char) : List (String × String) :=
  (fieldChars cs).map fun f => (String.ofList f.1, String.ofList f.2)

end Dashboard.Marker
