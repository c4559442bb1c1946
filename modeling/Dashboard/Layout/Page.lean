import Dashboard.Layout.Widget
/-!
# Pages and layouts

A page is a list of widgets, of which the later ones are painted over the earlier ones; the ids on a
page are distinct. A layout is a list of pages with settings. Editing a page either succeeds or
names the reason and changes nothing.
-/

namespace Dashboard

open Json Number

inductive LayoutError where
  | widgetNotFound (id : String)
  | duplicateWidget (id : String)
  | pageNotFound (index : Nat)
  | invalidProps (widget : String) (cause : DecodeError)
  | serialization (cause : DecodeError)

def LayoutError.message : LayoutError → String
  | .widgetNotFound id => "Widget not found: " ++ id
  | .duplicateWidget id => "Duplicate widget id on page: " ++ id
  | .pageNotFound index => "Page not found: " ++ natText index
  | .invalidProps widget cause =>
    "Invalid properties for widget " ++ widget ++ ": " ++ cause.message
  | .serialization cause => "Serialization error: " ++ cause.message

inductive Orientation where
  | landscape | portrait | landscapeInverted | portraitInverted
deriving DecidableEq, Repr

namespace Orientation

def name : Orientation → String
  | .landscape => "landscape"
  | .portrait => "portrait"
  | .landscapeInverted => "landscape_inverted"
  | .portraitInverted => "portrait_inverted"

def decoder : Decoder Orientation :=
  .choice ([landscape, portrait, landscapeInverted, portraitInverted].map fun o => (o.name, o))

end Orientation

structure Settings where
  orientation : Orientation := .landscape
  darkMode : Bool := false
  extra : Bag := []

namespace Settings

def record : Record (Bag → Settings) :=
  Settings.mk <$> .withDefault "orientation" Orientation.decoder .landscape
    <*> .withDefault "dark_mode" .bool false

def decoder : Decoder Settings := fun o s => do
  let (settings, rest) ← record.openEnded "struct LayoutSettings" o s
  return settings (Table.ofList rest)

def toJson (s : Settings) : Json :=
  .object ([("orientation", .string s.orientation.name), ("dark_mode", .bool s.darkMode)] ++ s.extra)

end Settings

structure Page where
  id : String
  name : String
  refreshSeconds : Option UInt32 := none
  widgets : List Widget := []

namespace Page

/-- Page names count from one; the count ends at the largest index. -/
def defaultName (index : Nat) : String := "Page " ++ natText (min (index + 1) (twoTo 64 - 1))

def make (index : Nat) : Page where
  id := "page_" ++ natText index
  name := defaultName index

def widget? (p : Page) (id : String) : Option Widget := p.widgets.find? fun w => w.id == id

def addWidget (p : Page) (w : Widget) : Except LayoutError Page :=
  if (p.widget? w.id).isSome then .error (.duplicateWidget w.id)
  else .ok { p with widgets := p.widgets ++ [w] }

theorem widget?_isSome {p : Page} {id : String} :
    (p.widget? id).isSome ↔ id ∈ p.widgets.map Widget.id := by
  simp [widget?, List.find?_isSome]

theorem addWidget_of_mem {p : Page} {w : Widget} (h : w.id ∈ p.widgets.map Widget.id) :
    p.addWidget w = .error (.duplicateWidget w.id) :=
  if_pos (widget?_isSome.mpr h)

theorem addWidget_of_not_mem {p : Page} {w : Widget} (h : w.id ∉ p.widgets.map Widget.id) :
    p.addWidget w = .ok { p with widgets := p.widgets ++ [w] } :=
  if_neg (fun hs => h (widget?_isSome.mp hs))

def dropFirst (id : String) : List Widget → List Widget
  | [] => []
  | w :: ws => if w.id = id then ws else w :: dropFirst id ws

def removeWidget (p : Page) (id : String) : Except LayoutError (Widget × Page) :=
  match p.widget? id with
  | none => .error (.widgetNotFound id)
  | some w => .ok (w, { p with widgets := dropFirst id p.widgets })

def changeFirst (id : String) (change : Widget → Widget) : List Widget → List Widget
  | [] => []
  | w :: ws => if w.id = id then change w :: ws else w :: changeFirst id change ws

theorem map_id_changeFirst {id : String} {change : Widget → Widget} {ws : List Widget}
    (h : ∀ w, (change w).id = w.id) :
    (changeFirst id change ws).map Widget.id = ws.map Widget.id := by
  induction ws with
  | nil => rfl
  | cons w ws ih =>
    rw [changeFirst]
    split
    · rw [List.map_cons, h, List.map_cons]
    · rw [List.map_cons, ih, List.map_cons]

/-- Changes the widget with an id and answers with the changed widget. -/
def changeWidget (p : Page) (id : String) (change : Widget → Widget) : Option (Widget × Page) :=
  (p.widget? id).map fun w => (change w, { p with widgets := changeFirst id change p.widgets })

def record : Record Page :=
  Page.mk <$> .required "id" .string
    <*> .required "name" .string
    <*> .optional "refresh_s" .uint32
    <*> .withDefault "widgets" (.list Widget.decoder) []

def decoder : Decoder Page := record.closed "struct Page"

def toJson (p : Page) : Json :=
  .object ([("id", .string p.id), ("name", .string p.name)] ++
    Condition.fieldIf "refresh_s" (fun s => Json.ofNat s.toNat) p.refreshSeconds ++
    [("widgets", .array (p.widgets.map Widget.toJson))])

end Page

structure Layout where
  settings : Settings := {}
  pages : List Page := []

namespace Layout

/-- A layout with one empty page. -/
def single : Layout := { pages := [Page.make 0] }

def widgets (l : Layout) : List Widget := l.pages.flatMap Page.widgets

def page? (l : Layout) (index : Nat) : Except LayoutError Page :=
  match l.pages[index]? with
  | some p => .ok p
  | none => .error (.pageNotFound index)

def setPage (l : Layout) (index : Nat) (p : Page) : Layout := { l with pages := l.pages.set index p }

def withDarkMode (l : Layout) (dark : Bool) : Layout :=
  { l with settings := { l.settings with darkMode := dark } }

def record : Record Layout :=
  Layout.mk <$> .withDefault "settings" Settings.decoder {}
    <*> .withDefault "pages" (.list Page.decoder) []

def decoder : Decoder Layout := record.closed "struct Layout"

def toJson (l : Layout) : Json :=
  .object [("settings", l.settings.toJson), ("pages", .array (l.pages.map Page.toJson))]

/-- The text in which a layout is saved. -/
def save (l : Layout) : String := l.toJson.spread

def load (text : String) : Except LayoutError Layout :=
  match Json.ofText decoder text with
  | .ok l => .ok l
  | .error e => .error (.serialization e)

end Layout

end Dashboard
