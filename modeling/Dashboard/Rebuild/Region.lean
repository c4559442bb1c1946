import Dashboard.Text.Lines
import Dashboard.Text.Pattern
/-!
# Regions of a configuration

A configuration is a list of lines. Two kinds of lines open a region: one that starts a drawing
lambda and one that starts the description of the retained pages. The lines of the region follow.
The first indented line fixes the indent of the region; a region ends before a line with less
indent and before every root key. A line that ends a region may open the next one.
-/

namespace Dashboard

open Text

inductive Region where
  | drawing
  | retained
deriving DecidableEq, Repr

namespace Region

def expandTab (c : Char) : List Char := if c = '\t' then [' ', ' ', ' ', ' '] else [c]

def expandTabs (line : String) : String := String.ofList (line.toList.flatMap expandTab)

def indentOf (cs : List Char) : Nat := (cs.takeWhile (· == ' ')).length

/-- Whether a line starts with a word and a colon, without an indent. -/
def isRootKey (cs : List Char) : Bool :=
  match cs.takeWhile isWord, cs.dropWhile isWord with
  | _ :: _, ':' :: _ => true
  | _, _ => false

def opensDrawing (cs : List Char) : Bool :=
  (afterWords? ["-", "lambda:", "|-"] cs).isSome || (afterWords? ["lambda:", "|-"] cs).isSome

def opensRetained (cs : List Char) : Bool := (afterWords? ["lvgl:"] cs).isSome

def ofOpener? (cs : List Char) : Option Region :=
  if opensDrawing cs then some drawing
  else if opensRetained cs then some retained
  else none

end Region

/-- A region whose lines are being read. -/
structure OpenRegion where
  region : Region
  openerIndent : Nat
  indent : Option Nat := none
deriving DecidableEq, Repr

namespace OpenRegion

def ofOpener? (cs : List Char) : Option OpenRegion :=
  (Region.ofOpener? cs).map fun r => { region := r, openerIndent := Region.indentOf cs }

/-- The region with one more line, if the line belongs to it. -/
def extend? (r : OpenRegion) (cs : List Char) : Option OpenRegion :=
  let n := Region.indentOf cs
  if onlyBlank cs then some r
  else if Region.isRootKey cs then none
  else match r.indent with
    | some fixed => if fixed ≤ n then some r else none
    | none =>
      if n = 0 then some r
      else if r.openerIndent < n then some { r with indent := some n }
      else none

/-- The region after a line: the same one with the line in it, or the one that the line opens. -/
def next? (open? : Option OpenRegion) (cs : List Char) : Option Region × Option OpenRegion :=
  match open?.bind fun r => r.extend? cs with
  | some r => (some r.region, some r)
  | none => (none, ofOpener? cs)

end OpenRegion

/-- A line with the region it belongs to. Lines count from one, and tabs are four spaces wide. -/
structure RegionLine where
  region : Option Region
  number : Nat
  text : String
deriving DecidableEq, Repr

namespace RegionLine

def ofLines (open? : Option OpenRegion) (number : Nat) : List String → List RegionLine
  | [] => []
  | line :: lines =>
    let text := Region.expandTabs line
    let (region, open?) := OpenRegion.next? open? text.toList
    ⟨region, number, text⟩ :: ofLines open? (number + 1) lines

def ofText (text : String) : List RegionLine := ofLines none 1 (Text.lines text)

end RegionLine

end Dashboard
