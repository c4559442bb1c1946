import Dashboard.Document.Sensor
import Dashboard.Layout.Widget
import Dashboard.Text.Lines
/-!
# Retained documents

The retained document is a tree of GUI nodes. A node has a tag and a bag of properties, and is
written as an indented block. Scalars that another kind of value could be mistaken for are quoted;
a value of several lines that starts with the lambda tag is written as a block of its own.
-/

namespace Dashboard

open Text Number

structure RetainedNode where
  tag : String
  props : Bag := []

namespace RetainedNode

def put (key : String) (value : Json) (n : RetainedNode) : RetainedNode :=
  { n with props := n.props.put key value }

def putText (key value : String) (n : RetainedNode) : RetainedNode := n.put key (.string value)

def putPixel (key : String) (value : Pixel) (n : RetainedNode) : RetainedNode :=
  n.put key (.ofInt value.toInt)

def putCount (key : String) (value : UInt32) (n : RetainedNode) : RetainedNode :=
  n.put key (.ofNat value.toNat)

def putTextIf (key : String) (value : Option String) (n : RetainedNode) : RetainedNode :=
  match value with
  | some v => n.putText key v
  | none => n

/-- A node with the id and the box of a widget. -/
def ofWidget (tag : String) (w : Widget) : RetainedNode :=
  let r := w.rect
  (RetainedNode.mk tag []).putText "id" w.id |>.putPixel "x" r.x |>.putPixel "y" r.y
    |>.putPixel "width" r.width |>.putPixel "height" r.height

def toJson (n : RetainedNode) : Json := .object [(n.tag, .object n.props)]

end RetainedNode

/-- A value that is computed by lines of firmware code. -/
def lambdaValue (lines : List String) : Json :=
  .string ("!lambda |-" ++ String.join (lines.map ("\n" ++ ·)))

structure RetainedPage where
  id : String
  widgets : List RetainedNode := []

structure RetainedDocument where
  fonts : List FontRequest := []
  sensors : List SensorDecl := []
  pages : List RetainedPage := []

namespace Yaml

def isReserved (s : String) : Bool :=
  ["true", "false", "yes", "no", "on", "off", "null", "~"].contains (lower s)

def isHexDigit (c : Char) : Bool := (Json.hexValue? c).isSome

def isHexNumber : List Char → Bool
  | '0' :: 'x' :: ds => !ds.isEmpty && ds.all isHexDigit
  | _ => false

def isPercentage (cs : List Char) : Bool :=
  match beforeLast? '%' cs with
  | some ds => !ds.isEmpty && ds.all Char.isDigit
  | none => false

def isWordStart (c : Char) : Bool := c.isAlpha || c == '_'

def isWordPart (c : Char) : Bool := c.isAlphanum || c == '_' || c == '.' || c == '-' || c == '/'

def isPlainWord : List Char → Bool
  | [] => false
  | c :: cs => isWordStart c && cs.all isWordPart

/-- A string that needs no quotes. -/
def isPlain (s : String) : Bool :=
  !s.isEmpty && !isReserved s && (isHexNumber s.toList || isPercentage s.toList || isPlainWord s.toList)

def stringText (s : String) : String :=
  if startsWith "!lambda" s || isPlain s then s else Json.quote s

mutual

def scalar : Json → String
  | .null => "null"
  | .bool b => if b then "true" else "false"
  | .number n => n.text
  | .string s => stringText s
  | .array vs => "[" ++ joined ", " (scalars vs) ++ "]"
  | .object _ => "\x7b\x7d"

def scalars : List Json → List String
  | [] => []
  | v :: vs => scalar v :: scalars vs

end

/-- Puts the dash of a list item into the first line of a block that is four columns deep. -/
def dashed (indent : Nat) : List String → List String
  | [] => []
  | l :: ls => (spaces (indent + 2) ++ "- " ++ String.ofList (l.toList.drop (indent + 4))) :: ls

def lambdaLines (indent : Nat) (key text : String) : List String :=
  match lines text with
  | [] => [spaces indent ++ key ++ ": "]
  | head :: rest => (spaces indent ++ key ++ ": " ++ head) :: rest.map (spaces (indent + 2) ++ ·)

def isLambdaBlock (s : String) : Bool := startsWith "!lambda" s && s.toList.contains '\n'

mutual

def entryLines (indent : Nat) (key : String) : Json → List String
  | .object (f :: fs) => (spaces indent ++ key ++ ":") :: fieldLines (indent + 2) (f :: fs)
  | .array vs =>
    if vs.any Json.isObject then (spaces indent ++ key ++ ":") :: itemLines indent vs
    else [spaces indent ++ key ++ ": " ++ scalar (.array vs)]
  | .string s =>
    if isLambdaBlock s then lambdaLines indent key s
    else [spaces indent ++ key ++ ": " ++ stringText s]
  | v => [spaces indent ++ key ++ ": " ++ scalar v]

def fieldLines (indent : Nat) : List (String × Json) → List String
  | [] => []
  | (k, v) :: fs => entryLines indent k v ++ fieldLines indent fs

def itemLines (indent : Nat) : List Json → List String
  | [] => []
  | .object fs :: vs => dashed indent (fieldLines (indent + 4) fs) ++ itemLines indent vs
  | v :: vs => (spaces (indent + 2) ++ "- " ++ scalar v) :: itemLines indent vs

end

end Yaml

namespace RetainedDocument

def nodeLines (n : RetainedNode) : List String :=
  ("        - " ++ n.tag ++ ":") :: Yaml.fieldLines 12 n.props

def pageLines (p : RetainedPage) : List String :=
  ("    - id: " ++ p.id) ::
    (if p.widgets.isEmpty then ["      widgets: []"]
    else "      widgets:" :: p.widgets.flatMap nodeLines)

def text (d : RetainedDocument) : String :=
  unlines (FontRequest.sectionLines d.fonts ++ SensorDecl.sectionLines d.sensors ++
    ["lvgl:", "  pages:"] ++ d.pages.flatMap pageLines)

def nodeCount (d : RetainedDocument) : Nat := total (d.pages.map fun p => p.widgets.length)

def pageJson (p : RetainedPage) : Json :=
  .object [("id", .string p.id), ("widgets", .array (p.widgets.map RetainedNode.toJson))]

def toJson (d : RetainedDocument) : Json :=
  .object [("fonts", .array (d.fonts.map FontRequest.toJson)),
    ("sensors", .array (d.sensors.map SensorDecl.toJson)), ("pages", .array (d.pages.map pageJson))]

end RetainedDocument

end Dashboard
