import Dashboard.Layout.Widget
import Dashboard.Number.Integer
import Dashboard.Text.Ascii
import Dashboard.Text.Pattern
/-!
# Bare drawing calls

A call that draws a plain shape tells enough to make a widget of it, if its coordinates are plain
numbers. A call whose box would leave the range of pixels is no drawing.
-/

namespace Dashboard

open Text Number

inductive Drawing where
  | rectangle (filled : Bool) (x y width height : Pixel) (color : String)
  | circle (filled : Bool) (x y radius : Pixel) (color : String)
  | line (startX startY endX endY : Pixel) (color : String)
deriving DecidableEq, Repr

namespace Drawing

def isLowerHex (c : Char) : Bool := c.isDigit || ('a' ≤ c && c ≤ 'f')

/-- The color that a constant stands for. -/
def colorOfConstant (constant : String) : String :=
  if constant = "COLOR_OFF" then "white"
  else if constant = "COLOR_ON" then "black"
  else match afterStart? "color_" constant with
    | none => "black"
    | some name =>
      if name.isEmpty then "black"
      else if name.length = 6 && name.toList.all isLowerHex then "#" ++ name
      else name

/-- Black is drawn where a call names no color. -/
def colorOf (argument : Option (List Char)) : String :=
  match argument with
  | some cs => colorOfConstant (String.ofList cs)
  | none => "black"

def pixel? (cs : List Char) : Option Pixel := (readInt32? cs).map Int32.ofInt

/-- The name of a call and its arguments, up to the first semicolon. -/
def call? (cs : List Char) : Option (List Char × List (List Char)) := do
  let rest ← afterWords? ["it."] cs
  let name := rest.takeWhile isWord
  let rest ← afterWords? ["("] (rest.dropWhile isWord)
  if rest.contains ';' then
    let arguments ← beforeLast? ')' (dropBlankEnd (rest.takeWhile (· != ';')))
    return (name, (fields ',' arguments).map trimChars)
  else none

/-- So many coordinates and, after them, at most one color. -/
def arguments? (coordinates : Nat) (parts : List (List Char)) : Option (List Pixel × String) := do
  let pixels ← (parts.take coordinates).mapM pixel?
  match parts.drop coordinates with
  | [] => return (pixels, colorOf none)
  | [color] => return (pixels, colorOf (some color))
  | _ => none

def rectangle? (filled : Bool) (parts : List (List Char)) : Option Drawing :=
  match arguments? 4 parts with
  | some ([x, y, width, height], color) => some (.rectangle filled x y width height color)
  | _ => none

def circle? (filled : Bool) (parts : List (List Char)) : Option Drawing :=
  match arguments? 3 parts with
  | some ([x, y, radius], color) => some (.circle filled x y radius color)
  | _ => none

def line? (parts : List (List Char)) : Option Drawing :=
  match arguments? 4 parts with
  | some ([startX, startY, endX, endY], color) => some (.line startX startY endX endY color)
  | _ => none

def ofCall? (name : String) (parts : List (List Char)) : Option Drawing :=
  match name with
  | "rectangle" => rectangle? false parts
  | "filled_rectangle" => rectangle? true parts
  | "circle" => circle? false parts
  | "filled_circle" => circle? true parts
  | "line" => line? parts
  | _ => none

def ofLine? (line : String) : Option Drawing := do
  let (name, parts) ← call? line.toList
  ofCall? (String.ofList name) parts

/-- A box in pixels, if its numbers are in range. -/
def box? (x y width height : Int) : Option Rect := do
  let x ← Pixel.ofInt? x
  let y ← Pixel.ofInt? y
  let width ← Pixel.ofInt? width
  let height ← Pixel.ofInt? height
  return ⟨x, y, width, height⟩

/-- The box of a line is its extent from the start, which may be negative. -/
def rect? : Drawing → Option Rect
  | .rectangle _ x y width height _ => some ⟨x, y, width, height⟩
  | .circle _ x y radius _ =>
    box? (x.toInt - radius.toInt) (y.toInt - radius.toInt) (2 * radius.toInt) (2 * radius.toInt)
  | .line x y endX endY _ => box? x.toInt y.toInt (endX.toInt - x.toInt) (endY.toInt - y.toInt)

def kind : Drawing → String
  | .rectangle .. => "shape_rect"
  | .circle .. => "shape_circle"
  | .line .. => "line"

/-- The start of the ids of widgets that are made of drawings. -/
def idStem : Drawing → String
  | .rectangle filled .. => if filled then "w_frect_" else "w_rect_"
  | .circle filled .. => if filled then "w_fcircle_" else "w_circle_"
  | .line .. => "w_line_"

def props (r : Rect) : Drawing → Bag
  | .rectangle filled _ _ _ _ color => Table.ofList [("fill", .bool filled), ("color", .string color)]
  | .circle filled _ _ _ color => Table.ofList [("fill", .bool filled), ("color", .string color)]
  | .line _ _ _ _ color =>
    let orientation :=
      if r.width.toInt.natAbs < r.height.toInt.natAbs then "vertical" else "horizontal"
    Table.ofList [("stroke_width", .ofNat 1), ("orientation", .string orientation),
      ("color", .string color)]

/-- The widget of a drawing. The ordinal tells it from others of its page. -/
def widget? (d : Drawing) (ordinal : Nat) : Option Widget :=
  d.rect?.map fun r =>
    { Widget.make (d.idStem ++ natText ordinal) d.kind with
      x := Pixel.toBinary64 r.x
      y := Pixel.toBinary64 r.y
      width := Pixel.toBinary64 r.width
      height := Pixel.toBinary64 r.height
      props := d.props r }

end Drawing

/-- The widget that a line of drawing code tells of without a marker. -/
def Widget.recover? (line : String) (ordinal : Nat) : Option Widget :=
  (Drawing.ofLine? line).bind fun d => d.widget? ordinal

end Dashboard
