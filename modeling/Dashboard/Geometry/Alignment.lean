import Dashboard.Geometry.Rect
import Dashboard.Json.Decode
/-!
# Alignments

An alignment names one of nine anchor points of a box. It is written as a keyword, as a two-letter
anchor code, as a constant of the drawing code and as a pair of flex axes, and each of these forms
reads back to the alignment that it was written for.
-/

namespace Dashboard

open Json

inductive HAlign where
  | left | center | right
deriving DecidableEq, Repr

inductive VAlign where
  | top | center | bottom
deriving DecidableEq, Repr

structure Alignment where
  horizontal : HAlign
  vertical : VAlign
deriving DecidableEq, Repr

inductive FlexAlign where
  | start | center | finish
deriving DecidableEq, Repr

structure FlexAnchor where
  horizontal : FlexAlign
  vertical : FlexAlign
deriving DecidableEq, Repr

inductive FlexDirection where
  | row | column
deriving DecidableEq, Repr

namespace HAlign

def word : HAlign → String
  | .left => "LEFT"
  | .center => "CENTER"
  | .right => "RIGHT"

def letter : HAlign → Char
  | .left => 'l'
  | .center => 'c'
  | .right => 'r'

def ofLetter? : Char → Option HAlign
  | 'l' => some .left
  | 'c' => some .center
  | 'r' => some .right
  | _ => none

def flex : HAlign → FlexAlign
  | .left => .start
  | .center => .center
  | .right => .finish

def ofFlex : FlexAlign → HAlign
  | .start => .left
  | .center => .center
  | .finish => .right

def point (h : HAlign) (edge extent : Pixel) : Pixel :=
  match h with
  | .left => edge
  | .center => Rect.middle edge extent
  | .right => Pixel.add edge extent

end HAlign

namespace VAlign

def word : VAlign → String
  | .top => "TOP"
  | .center => "CENTER"
  | .bottom => "BOTTOM"

def letter : VAlign → Char
  | .top => 't'
  | .center => 'm'
  | .bottom => 'b'

def ofLetter? : Char → Option VAlign
  | 't' => some .top
  | 'm' => some .center
  | 'b' => some .bottom
  | _ => none

def flex : VAlign → FlexAlign
  | .top => .start
  | .center => .center
  | .bottom => .finish

def ofFlex : FlexAlign → VAlign
  | .start => .top
  | .center => .center
  | .finish => .bottom

def point (v : VAlign) (edge extent : Pixel) : Pixel :=
  match v with
  | .top => edge
  | .center => Rect.middle edge extent
  | .bottom => Pixel.add edge extent

end VAlign

namespace FlexAlign

def keyword : FlexAlign → String
  | .start => "flex-start"
  | .center => "center"
  | .finish => "flex-end"

def decoder : Decoder FlexAlign :=
  .choice [("flex-start", .start), ("center", .center), ("flex-end", .finish)]

end FlexAlign

namespace FlexAnchor

/-- How the main axis is justified and the cross axis aligned in a container. -/
def css (a : FlexAnchor) : FlexDirection → String × String
  | .row => (a.horizontal.keyword, a.vertical.keyword)
  | .column => (a.vertical.keyword, a.horizontal.keyword)

def toJson (a : FlexAnchor) : Json :=
  .object [("horizontal", .string a.horizontal.keyword), ("vertical", .string a.vertical.keyword)]

def record : Record FlexAnchor :=
  FlexAnchor.mk <$> .required "horizontal" FlexAlign.decoder
    <*> .required "vertical" FlexAlign.decoder

def decoder : Decoder FlexAnchor := record.closed "struct FlexAnchor"

end FlexAnchor

namespace Alignment

def all : List Alignment :=
  [VAlign.top, .center, .bottom].flatMap fun v =>
    [HAlign.left, .center, .right].map fun h => ⟨h, v⟩

/-- Looks for the words of a keyword in any case. What is not mentioned is centered. -/
def ofKeyword (keyword : String) : Alignment :=
  let word := (Text.upper keyword).toList
  let mentions (part : String) : Bool := Text.contains part.toList word
  { horizontal := if mentions "LEFT" then .left else if mentions "RIGHT" then .right else .center
    vertical := if mentions "TOP" then .top else if mentions "BOTTOM" then .bottom else .center }

def keyword (a : Alignment) : String :=
  match a with
  | ⟨.center, .center⟩ => "CENTER"
  | a => a.vertical.word ++ "_" ++ a.horizontal.word

def withVertical (a : Alignment) (v : VAlign) : Alignment := { a with vertical := v }

def flex (a : Alignment) : FlexAnchor := ⟨a.horizontal.flex, a.vertical.flex⟩

def ofFlex (f : FlexAnchor) : Alignment := ⟨.ofFlex f.horizontal, .ofFlex f.vertical⟩

def anchorCode (a : Alignment) : String := String.ofList [a.vertical.letter, a.horizontal.letter]

def ofAnchorCode? (code : String) : Option Alignment :=
  match code.toList with
  | [v, h] => do
    let vertical ← VAlign.ofLetter? v
    let horizontal ← HAlign.ofLetter? h
    return { horizontal, vertical }
  | _ => none

def textAlign (a : Alignment) : String := "TextAlign::" ++ a.keyword

def ofTextAlign? (constant : String) : Option Alignment := do
  let keyword ← Text.afterStart? "TextAlign::" constant
  let a := ofKeyword keyword
  if a.keyword = keyword then some a else none

/-- The retained GUI aligns text horizontally only. -/
def guiTextAlign (a : Alignment) : String := a.horizontal.word

def anchorPoint (a : Alignment) (r : Rect) : Pixel × Pixel :=
  (a.horizontal.point r.x r.width, a.vertical.point r.y r.height)

theorem ofKeyword_keyword (a : Alignment) : ofKeyword a.keyword = a := by
  rcases a with ⟨_ | _ | _, _ | _ | _⟩ <;> decide +kernel

theorem ofTextAlign?_textAlign (a : Alignment) : ofTextAlign? a.textAlign = some a := by
  rcases a with ⟨_ | _ | _, _ | _ | _⟩ <;> decide +kernel

theorem ofAnchorCode?_anchorCode (a : Alignment) : ofAnchorCode? a.anchorCode = some a := by
  rcases a with ⟨_ | _ | _, _ | _ | _⟩ <;> decide +kernel

theorem ofFlex_flex (a : Alignment) : ofFlex a.flex = a := by
  rcases a with ⟨_ | _ | _, _ | _ | _⟩ <;> rfl

theorem mem_all (a : Alignment) : a ∈ all := by
  rcases a with ⟨_ | _ | _, _ | _ | _⟩ <;> decide

def toJson (a : Alignment) : Json :=
  .object [("horizontal", .string a.horizontal.word), ("vertical", .string a.vertical.word)]

end Alignment

def Rect.center (r : Rect) : Pixel × Pixel := Alignment.anchorPoint ⟨.center, .center⟩ r

end Dashboard
