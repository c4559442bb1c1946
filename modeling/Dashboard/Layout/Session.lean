import Dashboard.Compile.Layout
import Dashboard.Rebuild.Layout
/-!
# Editing sessions

A session is a sequence of edits of one layout. An edit that fails leaves the layout as it was.
-/

namespace Dashboard

open Number

inductive Edit where
  | replace (l : Layout)
  | addPage (index : Nat) (name : Option String) (refreshSeconds : Option UInt32)
  | setDarkMode (dark : Bool)
  | addWidget (page : Nat) (w : Widget)
  | removeWidget (page : Nat) (id : String)
  | setGeometry (page : Nat) (id : String) (x y width height : Binary64)
  | setProp (page : Nat) (id key : String) (value : Json)
  | setEntity (page : Nat) (id : String) (entity : Option String)
  | rebuild (text : String)
  /-- Rebuilds the layout from its own drawing code. -/
  | rebuildOwn

/-- What an edit answers with, beside the layout. -/
inductive EditAnswer where
  | done
  | widget (w : Option Widget)
  | notices (ns : List Notice)

namespace Layout

def addPage (l : Layout) (index : Nat) (name : Option String) (refreshSeconds : Option UInt32) :
    Layout :=
  let p := Page.make index
  { l with pages := l.pages ++ [{ p with name := name.getD p.name, refreshSeconds }] }

def changeWidget (l : Layout) (page : Nat) (id : String) (f : Widget → Widget) :
    Except LayoutError (EditAnswer × Layout) := do
  let p ← l.page? page
  match p.changeWidget id f with
  | some (w, p) => return (.widget (some w), l.setPage page p)
  | none => return (.widget none, l)

def ofNotices (r : Layout × List Notice) : EditAnswer × Layout := (.notices r.2, r.1)

def drawingCode (l : Layout) : String :=
  (Registry.compile .builtin {} l .procedural).output.text

end Layout

namespace Edit

def apply (l : Layout) : Edit → Except LayoutError (EditAnswer × Layout)
  | .replace new => .ok (.done, new)
  | .addPage index name refreshSeconds => .ok (.done, l.addPage index name refreshSeconds)
  | .setDarkMode dark => .ok (.done, l.withDarkMode dark)
  | .addWidget page w => do
    let p ← (← l.page? page).addWidget w
    return (.done, l.setPage page p)
  | .removeWidget page id => do
    let (w, p) ← (← l.page? page).removeWidget id
    return (.widget (some w), l.setPage page p)
  | .setGeometry page id x y width height =>
    l.changeWidget page id fun w => w.withGeometry x y width height
  | .setProp page id key value => l.changeWidget page id fun w => w.withProp key value
  | .setEntity page id entity => l.changeWidget page id fun w => { w with entityId := entity }
  | .rebuild text => .ok (Layout.ofNotices (Layout.ofConfiguration .builtin text))
  | .rebuildOwn => .ok (Layout.ofNotices (Layout.ofConfiguration .builtin l.drawingCode))

end Edit

namespace Layout

/-- The layout after an edit, and the answer to the edit. -/
def edit (l : Layout) (e : Edit) : Except LayoutError EditAnswer × Layout :=
  match e.apply l with
  | .ok (answer, l) => (.ok answer, l)
  | .error cause => (.error cause, l)

end Layout

end Dashboard
