import Dashboard.Text.Blank
import Dashboard.Text.Ascii
import Dashboard.Json.Basic
/-!
# Font requests

A request is brought to a normal form: a blank or custom family becomes the default family, the
weight is the nearest multiple of a hundred between 100 and 900, and the size is at least one pixel.
-/

namespace Dashboard

open Text Number

structure FontRequest where
  family : String
  weight : Nat
  size : UInt32
  italic : Bool
deriving DecidableEq, Repr

namespace FontRequest

def defaultFamily : String := "Roboto"

def familyOf (family : String) : String :=
  let f := trim family
  if f.isEmpty || startsWith "Custom" f then defaultFamily else f

def weightOf (weight : Nat) : Nat := min 900 ((max 100 (min weight 900) + 50) / 100 * 100)

def make (family : String) (weight : UInt32) (size : UInt32) (italic : Bool) : FontRequest where
  family := familyOf family
  weight := weightOf weight.toNat
  size := max size 1
  italic := italic

def slugChar (c : Char) : Char := if c.isAlphanum then c.toLower else '_'

def id (f : FontRequest) : String :=
  "font_" ++ String.ofList (f.family.toList.map slugChar) ++ "_" ++ natText f.weight ++ "_" ++
    natText f.size.toNat ++ (if f.italic then "_italic" else "")

def source (f : FontRequest) : String :=
  "gfonts://" ++ f.family ++ "@" ++ natText f.weight ++ (if f.italic then "italic" else "")

/-- The font file of the declarative renderers. -/
def file (f : FontRequest) : String :=
  if contains "Mono".toList f.family.toList then "mononoki.ttf" else "ppb.ttf"

def display (f : FontRequest) : String :=
  f.family ++ " " ++ natText f.weight ++ " " ++ natText f.size.toNat ++ "px" ++
    (if f.italic then " italic" else "")

def toJson (f : FontRequest) : Json :=
  .object [("family", .string f.family), ("weight", .ofNat f.weight), ("size", .ofNat f.size.toNat),
    ("italic", .bool f.italic)]

end FontRequest

end Dashboard
