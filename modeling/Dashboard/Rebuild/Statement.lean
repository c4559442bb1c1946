import Dashboard.Marker.Line
import Dashboard.Text.CLiteral
import Dashboard.Text.Pattern
/-!
# Statements of a drawing lambda

A lambda switches between pages, sets their refresh intervals, names them in comments and draws
widgets, each after its marker. The drawing code of a widget consists of calls, blocks, loops,
tests and local names only; the first other line ends it.
-/

namespace Dashboard

open Text Number

inductive Statement where
  | marker (m : Marker)
  | pageTest (index : Nat)
  | interval (index : Nat) (seconds : UInt32)
  /-- An interval whose numbers are out of range. -/
  | unreadableInterval
  | pageName (name : String)
  | other (inBody : Bool)
deriving DecidableEq, Repr

namespace Statement

/-- What follows the end of the preceding branch, if the line has one. -/
def afterElse (cs : List Char) : Option (List Char) :=
  match afterWords? ["\x7d", "else"] cs with
  | some rest => afterBlank? rest
  | none => some cs

def afterPageNumber? (cs : List Char) : Option (List Char) :=
  afterWords? ["id", "(", "display_page", ")"] cs <|> afterWords? ["page"] cs

def endsTest (cs : List Char) : Bool :=
  match skipBlank cs with
  | '{' :: rest => onlyBlank rest
  | rest => rest.isEmpty

/-- The page that a test selects. -/
def pageTest? (cs : List Char) : Option Nat := do
  let rest ← afterElse cs
  let rest ← afterWords? ["if", "("] rest
  let rest ← afterPageNumber? rest
  let rest ← afterWords? ["=="] rest
  let (digits, rest) ← decimals? rest
  let rest ← afterWords? [")"] rest
  if endsTest rest then readNat64? digits else none

def endsCase (cs : List Char) : Bool :=
  match afterWords? ["break", ";"] cs with
  | some rest => onlyBlank rest
  | none => onlyBlank cs

/-- The digits of a page number and of the interval that a case of the switch sets for it. -/
def intervalCase? (cs : List Char) : Option (List Char × List Char) := do
  let rest ← afterWords? ["case"] cs
  let rest ← afterBlank? rest
  let (page, rest) ← decimals? rest
  let rest ← afterWords? [":", "interval", "="] rest
  let (seconds, rest) ← decimals? rest
  let rest ← afterWords? [";"] rest
  if endsCase rest then some (page, seconds) else none

def ofInterval (page seconds : List Char) : Statement :=
  match readNat64? page, readNat32? seconds with
  | some index, some seconds => .interval index (UInt32.ofNat seconds)
  | _, _ => .unreadableInterval

def pageName? (cs : List Char) : Option String := do
  let rest ← afterWords? ["//", "page:name"] cs
  let rest ← afterBlank? rest
  let rest ← ['"'].isPrefixOf? rest
  let body ← beforeLast? '"' (dropBlankEnd rest)
  return String.ofList (readLiteralBody body)

def isCall (cs : List Char) : Bool :=
  match "it.".toList.isPrefixOf? cs with
  | some rest => !(rest.takeWhile isWord).isEmpty && (afterWords? ["("] (rest.dropWhile isWord)).isSome
  | none => false

def isBrace (cs : List Char) : Bool :=
  match cs with
  | c :: _ => c == '{' || c == '}'
  | [] => false

/-- Whether a word stands at the start and what follows it passes a test. -/
def startsWithWord (word : String) (follows : List Char → Bool) (cs : List Char) : Bool :=
  match word.toList.isPrefixOf? cs with
  | some rest => follows rest
  | none => false

def endsWord (cs : List Char) : Bool :=
  match cs with
  | c :: _ => !isWord c
  | [] => true

/-- Whether a line can be part of the drawing code of a widget. -/
def isBody (cs : List Char) : Bool :=
  let cs := skipBlank cs
  isCall cs || isBrace cs || (afterWords? ["for", "("] cs).isSome || (afterWords? ["if", "("] cs).isSome ||
    startsWithWord "else" endsWord cs || startsWithWord "auto" (fun rest => (afterBlank? rest).isSome) cs

def ofLine (line : String) : Statement :=
  let cs := line.toList
  match Marker.ofLine? line with
  | some m => .marker m
  | none =>
    match pageTest? cs with
    | some index => .pageTest index
    | none =>
      match intervalCase? cs with
      | some (page, seconds) => ofInterval page seconds
      | none =>
        match pageName? cs with
        | some name => .pageName name
        | none => .other (isBody cs)

end Statement

end Dashboard
