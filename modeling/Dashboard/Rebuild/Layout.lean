import Dashboard.Kind.Registry
import Dashboard.Rebuild.Region
import Dashboard.Rebuild.Drawing
import Dashboard.Rebuild.Statement
/-!
# Rebuilding layouts

A layout is rebuilt from a configuration line by line. A marker gives a widget back; a shape drawn
without a marker becomes a widget of its own; the retained regions give only their pages. Nothing
makes the rebuild fail: what cannot be read is left out, and a notice says so.
-/

namespace Dashboard

open Text Number

inductive Notice where
  | withoutId (line : Nat) (id : String)
  | unknownKind (line : Nat) (kind : String)
  | unreadable (line : Nat) (widget raw property : String)
  | duplicate (line : Nat) (id : String)
  | moved (index place : Nat)
deriving DecidableEq, Repr

namespace Notice

def atLine (line : Nat) (text : String) : String := "line " ++ natText line ++ ": " ++ text

def message : Notice → String
  | .withoutId line id => atLine line ("marker without id, using " ++ id)
  | .unknownKind line kind => atLine line ("unknown widget type '" ++ kind ++ "'")
  | .unreadable line widget raw property =>
    atLine line (widget ++ ": cannot read '" ++ raw ++ "' for " ++ property)
  | .duplicate line id => atLine line ("duplicate widget id '" ++ id ++ "' skipped")
  | .moved index place =>
    "page index " ++ natText index ++ " is too far past the last page, placed at " ++ natText place

end Notice

namespace Marker

def real? (m : Marker) (key : String) : Option Binary64 :=
  (m.get? key).bind fun v => Binary64.read? (trimChars v.toList)

def idOr (m : Marker) (ordinal : Nat) (line : Nat) : String × List Notice :=
  match (m.get? "id").bind nonBlank? with
  | some id => (id, [])
  | none =>
    let id := "w_" ++ m.kind ++ "_" ++ natText ordinal
    (id, [.withoutId line id])

def condition (m : Marker) : Condition where
  entityId := m.get? "cond_ent"
  operator := m.get? "cond_op"
  state := m.get? "cond_state"
  lowest := m.real? "cond_min"
  highest := m.real? "cond_max"

/-- The widget of a marker without its properties. -/
def frame (m : Marker) (id : String) : Widget :=
  let w := Widget.make id m.kind
  { w with
    x := (m.real? "x").getD w.x
    y := (m.real? "y").getD w.y
    width := (m.real? "w").getD w.width
    height := (m.real? "h").getD w.height
    title := m.getFirst? ["title", "label"]
    entityId := m.getFirst? ["ent", "entity"]
    secondEntityId := m.getFirst? ["ent2", "entity_2"]
    condition := m.condition }

/-- The fields that are properties. A field `type` that repeats the kind is none. -/
def propFields (m : Marker) : List (String × String) :=
  m.fields.filter fun f => !reservedKeys.contains f.1 && !(f.1 == "type" && f.2 == m.kind)

/-- A property read by its kind, or the property that could not be read. -/
def readProp (kind? : Option WidgetKind) (key raw : String) : Except String (String × Json) :=
  match kind? with
  | none => .ok (key, inferValue raw)
  | some k =>
    let property := k.aliases.propertyOf key
    match decodeValue? raw (Table.find? k.descriptor.defaults property) with
    | some value => .ok (property, value)
    | none => .error property

def addProps (kind? : Option WidgetKind) (line : Nat) (w : Widget) :
    List (String × String) → Widget × List Notice
  | [] => (w, [])
  | (key, raw) :: fields =>
    match readProp kind? key raw with
    | .ok (property, value) => addProps kind? line (w.withProp property value) fields
    | .error property =>
      let (w, notices) := addProps kind? line w fields
      (w, .unreadable line w.id raw property :: notices)

/-- The widget of a marker. The ordinal serves as its id if the marker has none. -/
def widget (m : Marker) (kind? : Option WidgetKind) (ordinal line : Nat) : Widget × List Notice :=
  let (id, unnamed) := m.idOr ordinal line
  let unknown := if kind?.isSome then [] else [Notice.unknownKind line m.kind]
  let (w, unread) := addProps kind? line (m.frame id) m.propFields
  (w, unnamed ++ unknown ++ unread)

end Marker

/-- Pages by increasing index. -/
abbrev PageTable := List (Nat × Page)

namespace PageTable

/-- Changes a page, which is an empty one if the table has none of that index. -/
def change (index : Nat) (f : Page → Page) : PageTable → PageTable
  | [] => [(index, f (Page.make index))]
  | (i, p) :: t =>
    if index < i then (index, f (Page.make index)) :: (i, p) :: t
    else if index = i then (i, f p) :: t
    else (i, p) :: change index f t

def page (t : PageTable) (index : Nat) : Page := (t.lookup index).getD (Page.make index)

def enter (index : Nat) (t : PageTable) : PageTable := t.change index id

/-- The most empty pages that stand for missing indices in a row. -/
def widestGap : Nat := 16

/-- A page with the id of its new place, and its name too unless it has one of its own. -/
def renumber (index place : Nat) (p : Page) : Page :=
  let fresh := Page.make place
  { p with
    id := fresh.id
    name := if p.name = Page.defaultName index then fresh.name else p.name }

def emptyPages (first count : Nat) : List Page := (List.range count).map fun i => Page.make (first + i)

/-- The pages of a layout. A short gap is filled; after a wide one a page moves to the next place. -/
def pagesFrom (place : Nat) : PageTable → List Page × List Notice
  | [] => ([], [])
  | (index, p) :: t =>
    if index - place > widestGap then
      let (pages, notices) := pagesFrom (place + 1) t
      (renumber index place p :: pages, .moved index place :: notices)
    else
      let (pages, notices) := pagesFrom (place + (index - place) + 1) t
      (emptyPages place (index - place) ++ p :: pages, notices)

end PageTable

structure Rebuild where
  pages : PageTable := []
  current : Nat := 0
  /-- Whether the last lines are the drawing code of a marked widget. -/
  inBody : Bool := false
  notices : List Notice := []

namespace Rebuild

def currentPage (r : Rebuild) : Page := r.pages.page r.current

def openPage (index : Nat) (r : Rebuild) : Rebuild := { r with pages := r.pages.enter index }

def changePage (index : Nat) (f : Page → Page) (r : Rebuild) : Rebuild :=
  { r with pages := r.pages.change index f }

def notice (notices : List Notice) (r : Rebuild) : Rebuild := { r with notices := r.notices ++ notices }

/-- Adds a widget to the current page, unless its id is taken. -/
def add (w : Widget) (line : Nat) (r : Rebuild) : Rebuild :=
  match r.currentPage.addWidget w with
  | .ok p => r.changePage r.current fun _ => p
  | .error _ => r.notice [.duplicate line w.id]

def addMarked (g : Registry) (m : Marker) (line : Nat) (r : Rebuild) : Rebuild :=
  let (w, notices) := m.widget (g.kind? m.kind) r.currentPage.widgets.length line
  { (r.openPage r.current).notice notices |>.add w line with inBody := true }

/-- Adds the widget that an unmarked line draws, if it draws one. -/
def addDrawn (text : String) (line : Nat) (r : Rebuild) : Rebuild :=
  let r := { r.openPage r.current with inBody := false }
  match Widget.recover? text r.currentPage.widgets.length with
  | some w => r.add w line
  | none => r

def drawingLine (g : Registry) (l : RegionLine) (r : Rebuild) : Rebuild :=
  match Statement.ofLine l.text with
  | .marker m => r.addMarked g m l.number
  | .pageTest index => { r.openPage index with current := index, inBody := false }
  | .interval index seconds => r.changePage index fun p => { p with refreshSeconds := some seconds }
  | .unreadableInterval => r
  | .pageName name => r.changePage r.current fun p => { p with name := name }
  | .other inBody => if r.inBody && inBody then r else r.addDrawn l.text l.number

/-- The page that a line of a retained region starts. -/
def retainedPage? (cs : List Char) : Option Nat := do
  let rest ← afterWords? ["-", "id:", "page_"] cs
  readNat64? (rest.takeWhile isDecimal)

def retainedLine (l : RegionLine) (r : Rebuild) : Rebuild :=
  match retainedPage? l.text.toList with
  | some index => r.openPage index
  | none => r

def line (g : Registry) (r : Rebuild) (l : RegionLine) : Rebuild :=
  match l.region with
  | none => r
  | some .drawing => r.drawingLine g l
  | some .retained => r.retainedLine l

def run (g : Registry) (text : String) : Rebuild := (RegionLine.ofText text).foldl (line g) {}

/-- The rebuilt layout, which has a page at least, with all notices. -/
def layout (r : Rebuild) : Layout × List Notice :=
  if r.pages.isEmpty then (Layout.single, r.notices)
  else
    let (pages, notices) := PageTable.pagesFrom 0 r.pages
    ({ pages }, r.notices ++ notices)

end Rebuild

/-- Rebuilds a layout from a configuration, with the notices on what was left out. -/
def Layout.ofConfiguration (g : Registry) (text : String) : Layout × List Notice :=
  (Rebuild.run g text).layout

end Dashboard
