import Dashboard.Document.Guard
import Dashboard.Document.Sensor
import Dashboard.Marker.Line
import Dashboard.Text.Lines
/-!
# Procedural documents

The procedural document is a firmware configuration with a display lambda. The lambda has one
branch for each page; in it every widget has a block that starts with the marker of the widget, is
enclosed in its guard if it has one, and holds its drawing statements.
-/

namespace Dashboard

open Text Number

/-- The drawing statements of one widget while they are written. -/
structure Block where
  lines : List String
  indent : Nat
  guarded : Bool
deriving DecidableEq, Repr

namespace Block

/-- The column of lambda statements, and two further that of the statements of a page. -/
def lambdaColumn : Nat := 6

def pageColumn : Nat := 8

def start (w : Widget) (props : Bag) (aliases : Aliases) : Block :=
  let marker := spaces pageColumn ++ Marker.encode w props aliases
  match w.condition.guard? with
  | some g => ⟨[marker, spaces pageColumn ++ "if (" ++ g ++ ") \x7b"], pageColumn + 2, true⟩
  | none => ⟨[marker], pageColumn, false⟩

def line (b : Block) (statement : String) : Block :=
  { b with lines := b.lines ++ [spaces b.indent ++ statement] }

/-- A loop that runs a statement with `i` from zero up to a count. -/
def loop (b : Block) (count : Nat) (statement : String) : Block :=
  ((b.line ("for (int i = 0; i < " ++ natText count ++ "; i++) \x7b")).line ("  " ++ statement)).line
    "\x7d"

def openScope (b : Block) : Block :=
  let b := b.line "\x7b"
  { b with indent := b.indent + 2 }

def closeScope (b : Block) : Block := { b with indent := b.indent - 2 }.line "\x7d"

def finish (b : Block) : List String :=
  if b.guarded then b.lines ++ [spaces pageColumn ++ "\x7d"] else b.lines

end Block

structure ProceduralPage where
  index : Nat
  name : String
  refreshSeconds : Option UInt32
  body : List String := []
deriving DecidableEq, Repr

structure ProceduralDocument where
  options : Options
  fonts : List FontRequest
  graphs : List Graph
  sensors : List SensorDecl
  colors : List (String × Rgb)
  pages : List ProceduralPage

namespace ProceduralDocument

def refreshes (d : ProceduralDocument) : List (Nat × UInt32) :=
  d.pages.filterMap fun p => p.refreshSeconds.map fun s => (p.index, s)

def globalLines (d : ProceduralDocument) : List String :=
  ["globals:", "  - id: " ++ d.options.pageGlobal, "    type: int", "    restore_value: true",
    "    initial_value: '0'"] ++
  (if d.refreshes.isEmpty then []
    else ["  - id: page_refresh_interval", "    type: int",
      "    initial_value: '" ++ natText d.options.refreshSeconds.toNat ++ "'"]) ++ [""]

def graphDeclaration (g : Graph) : List String :=
  ["  - id: " ++ g.id, "    sensor: " ++ g.sensor, "    duration: " ++ g.duration,
    "    width: " ++ intText g.width.toInt, "    height: " ++ intText g.height.toInt,
    "    line_thickness: " ++ natText g.lineThickness.toNat]

def graphLines (d : ProceduralDocument) : List String :=
  if d.graphs.isEmpty then [] else "graph:" :: d.graphs.flatMap graphDeclaration ++ [""]

def refreshCase (r : Nat × UInt32) : String :=
  "            case " ++ natText r.1 ++ ": interval = " ++ natText r.2.toNat ++ "; break;"

def scriptLines (d : ProceduralDocument) : List String :=
  if d.refreshes.isEmpty then []
  else
    ["script:", "  - id: page_refresh", "    then:", "      - lambda: |-",
      "          int interval = " ++ natText d.options.refreshSeconds.toNat ++ ";",
      "          switch (id(" ++ d.options.pageGlobal ++ ")) \x7b"] ++
    d.refreshes.map refreshCase ++
    ["          \x7d", "          id(page_refresh_interval) = interval;", ""]

def byteText (n : UInt8) : String := natText n.toNat

def colorLine (c : String × Rgb) : String :=
  spaces Block.lambdaColumn ++ "const auto " ++ c.1 ++ " = Color(" ++ byteText c.2.red ++ ", " ++
    byteText c.2.green ++ ", " ++ byteText c.2.blue ++ ");"

def pageLines (p : ProceduralPage) : List String :=
  [spaces Block.lambdaColumn ++ "if (page == " ++ natText p.index ++ ") \x7b",
    spaces Block.pageColumn ++ "// page:name " ++ literal p.name] ++
  p.body ++ [spaces Block.lambdaColumn ++ "\x7d"]

def displayLines (d : ProceduralDocument) : List String :=
  ["display:", "  - platform: " ++ d.options.displayPlatform, "    id: " ++ d.options.displayId,
    "    update_interval: never", "    lambda: |-",
    spaces Block.lambdaColumn ++ "int page = id(" ++ d.options.pageGlobal ++ ");"] ++
  d.colors.map colorLine ++ d.pages.flatMap pageLines

def documentLines (d : ProceduralDocument) : List String :=
  d.globalLines ++ FontRequest.sectionLines d.fonts ++ d.graphLines ++
    (if d.options.emitSensors then SensorDecl.sectionLines d.sensors else []) ++
    d.scriptLines ++ d.displayLines

def text (d : ProceduralDocument) : String := unlines d.documentLines

end ProceduralDocument

end Dashboard
