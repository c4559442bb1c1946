import Dashboard.Geometry.Pixel
import Dashboard.Json.Tagged
import Dashboard.Target
/-!
# Declarative documents

A declarative document lists the drawing instructions of every page with absolute coordinates,
literal colors and font files. It is saved as JSON and can be loaded again.
-/

namespace Dashboard

open Json

structure TextDraw where
  value : String
  x : Pixel
  y : Pixel
  size : UInt32
  color : String
  anchor : String
  font : String
  align : Option String := none
  maxWidth : Option Pixel := none
  spacing : Option Pixel := none
deriving DecidableEq, Repr

structure CircleDraw where
  x : Pixel
  y : Pixel
  radius : Pixel
  fill : Option String
  outline : String
  width : UInt32
deriving DecidableEq, Repr

/-- The edges of a box. -/
structure Edges where
  left : Pixel
  top : Pixel
  right : Pixel
  bottom : Pixel
deriving DecidableEq, Repr

structure RectangleDraw where
  edges : Edges
  fill : Option String
  outline : String
  width : UInt32
  radius : Option UInt32 := none
  visible : Option Bool := none
deriving DecidableEq, Repr

structure EllipseDraw where
  edges : Edges
  fill : Option String
  outline : String
  width : UInt32
  visible : Option Bool := none
deriving DecidableEq, Repr

structure LineDraw where
  edges : Edges
  fill : String
  width : UInt32
deriving DecidableEq, Repr

inductive Instruction where
  | text (draw : TextDraw)
  | circle (draw : CircleDraw)
  | rectangle (draw : RectangleDraw)
  | ellipse (draw : EllipseDraw)
  | line (draw : LineDraw)
deriving DecidableEq, Repr

namespace Instruction

abbrev JsonFields := List (String × Json)

def pixelJson (p : Pixel) : Json := .ofInt p.toInt

def countJson (n : UInt32) : Json := .ofNat n.toNat

def fieldIf {α : Type} (name : String) (encode : α → Json) : Option α → JsonFields
  | none => []
  | some a => [(name, encode a)]

def edgeFields (e : Edges) : JsonFields :=
  [("x_start", pixelJson e.left), ("y_start", pixelJson e.top), ("x_end", pixelJson e.right),
    ("y_end", pixelJson e.bottom)]

def edges : Record Edges :=
  Edges.mk <$> .required "x_start" .int32 <*> .required "y_start" .int32
    <*> .required "x_end" .int32 <*> .required "y_end" .int32

def textFields (d : TextDraw) : JsonFields :=
  [("value", .string d.value), ("x", pixelJson d.x), ("y", pixelJson d.y), ("size", countJson d.size),
    ("color", .string d.color), ("anchor", .string d.anchor), ("font", .string d.font)] ++
  fieldIf "align" .string d.align ++ fieldIf "max_width" pixelJson d.maxWidth ++
  fieldIf "spacing" pixelJson d.spacing

def textRecord : Record TextDraw :=
  TextDraw.mk <$> .required "value" .string <*> .required "x" .int32 <*> .required "y" .int32
    <*> .required "size" .uint32 <*> .required "color" .string <*> .required "anchor" .string
    <*> .required "font" .string <*> .optional "align" .string <*> .optional "max_width" .int32
    <*> .optional "spacing" .int32

def circleFields (d : CircleDraw) : JsonFields :=
  [("x", pixelJson d.x), ("y", pixelJson d.y), ("radius", pixelJson d.radius),
    ("fill", .ofOption .string d.fill), ("outline", .string d.outline), ("width", countJson d.width)]

def circleRecord : Record CircleDraw :=
  CircleDraw.mk <$> .required "x" .int32 <*> .required "y" .int32 <*> .required "radius" .int32
    <*> .nullableField "fill" .string <*> .required "outline" .string <*> .required "width" .uint32

def rectangleFields (d : RectangleDraw) : JsonFields :=
  edgeFields d.edges ++ [("fill", .ofOption .string d.fill), ("outline", .string d.outline),
    ("width", countJson d.width)] ++ fieldIf "radius" countJson d.radius ++
  fieldIf "visible" .bool d.visible

def rectangleRecord : Record RectangleDraw :=
  RectangleDraw.mk <$> edges <*> .nullableField "fill" .string <*> .required "outline" .string
    <*> .required "width" .uint32 <*> .optional "radius" .uint32 <*> .optional "visible" .bool

def ellipseFields (d : EllipseDraw) : JsonFields :=
  edgeFields d.edges ++ [("fill", .ofOption .string d.fill), ("outline", .string d.outline),
    ("width", countJson d.width)] ++ fieldIf "visible" .bool d.visible

def ellipseRecord : Record EllipseDraw :=
  EllipseDraw.mk <$> edges <*> .nullableField "fill" .string <*> .required "outline" .string
    <*> .required "width" .uint32 <*> .optional "visible" .bool

def lineFields (d : LineDraw) : JsonFields :=
  edgeFields d.edges ++ [("fill", .string d.fill), ("width", countJson d.width)]

def lineRecord : Record LineDraw :=
  LineDraw.mk <$> edges <*> .required "fill" .string <*> .required "width" .uint32

def kind : Instruction → String
  | .text _ => "text"
  | .circle _ => "circle"
  | .rectangle _ => "rectangle"
  | .ellipse _ => "ellipse"
  | .line _ => "line"

def fields : Instruction → JsonFields
  | .text d => textFields d
  | .circle d => circleFields d
  | .rectangle d => rectangleFields d
  | .ellipse d => ellipseFields d
  | .line d => lineFields d

def toJson (i : Instruction) : Json := .object (("type", .string i.kind) :: i.fields)

def kinds : List (String × String × Record Instruction) :=
  [("text", "struct variant DrawInstruction::Text", text <$> textRecord),
    ("circle", "struct variant DrawInstruction::Circle", circle <$> circleRecord),
    ("rectangle", "struct variant DrawInstruction::Rectangle", rectangle <$> rectangleRecord),
    ("ellipse", "struct variant DrawInstruction::Ellipse", ellipse <$> ellipseRecord),
    ("line", "struct variant DrawInstruction::Line", line <$> lineRecord)]

def decoder : Decoder Instruction := .tagged "type" "internally tagged enum DrawInstruction" kinds

end Instruction

structure DeclarativePage where
  id : Nat
  name : String
  instructions : List Instruction := []
deriving DecidableEq, Repr

structure DeclarativeDocument where
  flavor : Flavor
  pages : List DeclarativePage := []
deriving DecidableEq, Repr

namespace DeclarativePage

def record : Record DeclarativePage :=
  DeclarativePage.mk <$> .required "id" .index <*> .required "name" .string
    <*> .required "instructions" (.list Instruction.decoder)

def decoder : Decoder DeclarativePage := record.closed "struct DeclarativePage"

def toJson (p : DeclarativePage) : Json :=
  .object [("id", .ofNat p.id), ("name", .string p.name),
    ("instructions", .array (p.instructions.map Instruction.toJson))]

end DeclarativePage

namespace DeclarativeDocument

def record : Record DeclarativeDocument :=
  DeclarativeDocument.mk <$> .required "flavor" Flavor.decoder
    <*> .required "pages" (.list DeclarativePage.decoder)

def decoder : Decoder DeclarativeDocument := record.closed "struct DeclarativeDocument"

def toJson (d : DeclarativeDocument) : Json :=
  .object [("flavor", .string d.flavor.name), ("pages", .array (d.pages.map DeclarativePage.toJson))]

def text (d : DeclarativeDocument) : String := d.toJson.spread

def load (s : String) : Decoded DeclarativeDocument := Json.ofText decoder s

def instructions (d : DeclarativeDocument) : List Instruction :=
  d.pages.flatMap DeclarativePage.instructions

end DeclarativeDocument

end Dashboard
