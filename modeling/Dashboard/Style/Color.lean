import Dashboard.Text.Blank
import Dashboard.Text.Ascii
import Dashboard.Json.Token
/-!
# Colors

A color property is a name, a hexadecimal triple, or one of two special words: `theme_auto` is the
foreground of the theme, and `transparent` paints nothing where an area is filled. Outlines and
foregrounds cannot be transparent and take the color of the theme instead.
-/

namespace Dashboard

structure Rgb where
  red : UInt8
  green : UInt8
  blue : UInt8
deriving DecidableEq, Repr

inductive ColorRole where
  | fill | outline | foreground
deriving DecidableEq, Repr

namespace Color

open Text

def themeAuto : String := "theme_auto"

def transparent : String := "transparent"

def themeDefault (dark : Bool) : String := if dark then "white" else "black"

/-- The color that a property stands for; none only for a transparent fill. -/
def resolve? (value : String) (role : ColorRole) (dark : Bool) : Option String :=
  let v := trim value
  if sameLetters v transparent then
    if role = .fill then none else some (themeDefault dark)
  else if v.isEmpty || sameLetters v themeAuto then some (themeDefault dark)
  else some v

/-- A color that overrides `base`, unless it is blank or `theme_auto`. -/
def effective (override : Option String) (base : String) : String :=
  match override.bind nonBlank? with
  | some c => if sameLetters c themeAuto then base else c
  | none => base

/-- Two characters of a triple. A plus sign may stand for the first digit. -/
def channel? (a b : Char) : Option UInt8 :=
  match (if a = '+' then some 0 else Json.hexValue? a), Json.hexValue? b with
  | some m, some n => some (UInt8.ofNat (16 * m + n))
  | _, _ => none

def ofHex? : List Char → Option Rgb
  | [a, b, c, d, e, f] => do
    let red ← channel? a b
    let green ← channel? c d
    let blue ← channel? e f
    return { red, green, blue }
  | _ => none

def ofName? (name : String) : Option Rgb :=
  if name = "black" then some ⟨0, 0, 0⟩
  else if name = "white" then some ⟨255, 255, 255⟩
  else if name = "red" then some ⟨255, 0, 0⟩
  else if name = "green" then some ⟨0, 255, 0⟩
  else if name = "blue" then some ⟨0, 0, 255⟩
  else if name = "yellow" then some ⟨255, 255, 0⟩
  else if name = "orange" then some ⟨255, 165, 0⟩
  else if name = "gray" || name = "grey" then some ⟨128, 128, 128⟩
  else none

def rgb? (color : String) : Option Rgb :=
  match trimChars color.toList with
  | '#' :: hex => ofHex? hex
  | name => ofName? (lower (String.ofList name))

end Color

/-- An opacity of 8 bits in the words of the retained GUI, or in percent. -/
def opacityText (opacity : UInt8) : String :=
  if opacity = 255 then "COVER"
  else if opacity = 0 then "TRANSP"
  else Number.natText ((opacity.toNat * 100 + 127) / 255) ++ "%"

end Dashboard
