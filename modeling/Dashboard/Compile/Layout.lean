import Dashboard.Compile.Report
/-!
# Compiling layouts

The widgets of a layout are taken in paint order. A widget of a kind that serves the target adds its
content to its page and its resources to those of the document; one that fails adds a diagnostic
and leaves the resources as they were before it. Then the entities of the layout are resolved, kind
by kind in the order of appearance, and the document is put together.
-/

namespace Dashboard

/-- What widgets put on a page, in the form of each target. -/
structure Content where
  statements : List String := []
  nodes : List RetainedNode := []
  instructions : List Instruction := []

namespace Content

def append (a b : Content) : Content where
  statements := a.statements ++ b.statements
  nodes := a.nodes ++ b.nodes
  instructions := a.instructions ++ b.instructions

instance : Append Content := ⟨append⟩

end Content

/-- The outcome of a stretch of widgets. -/
structure Progress where
  content : Content := {}
  diagnostics : List Diagnostic := []
  emitted : Nat := 0

namespace Progress

def append (a b : Progress) : Progress where
  content := a.content ++ b.content
  diagnostics := a.diagnostics ++ b.diagnostics
  emitted := a.emitted + b.emitted

instance : Append Progress := ⟨append⟩

end Progress

structure PageProgress where
  index : Nat
  page : Page
  progress : Progress

namespace WidgetKind

def serves (k : WidgetKind) (t : Target) : Bool :=
  k.descriptor.supportsTarget t && k.descriptor.supports (.forTarget t)

def collectFor (k : WidgetKind) (s : Setting) (w : Widget) : Emission Unit :=
  if k.descriptor.supports .collectResources then k.collect s w else pure ()

/-- The content of a widget in the form of the target. -/
def content (k : WidgetKind) (s : Setting) (w : Widget) : Emission Content :=
  match s.target with
  | .procedural => do
    let statements ← k.procedural s w
    return { statements }
  | .retained => do
    let nodes ← Emission.ofExcept (k.retained s (← get) w)
    return { nodes }
  | .declarative f => do
    let instructions ← Emission.ofExcept (k.declarative s (← get) f w)
    return { instructions }

def emit (k : WidgetKind) (s : Setting) (w : Widget) : Emission Content := do
  k.collectFor s w
  k.content s w

end WidgetKind

namespace Registry

def compileWidget (g : Registry) (s : Setting) (page : Nat) (w : Widget) (r : Resources) :
    Progress × Resources :=
  match g.kind? w.kind with
  | none => ({ diagnostics := [.unknownKind page w.id w.kind] }, r)
  | some k =>
    if k.serves s.target then
      match Emission.runWith (k.emit s w) r with
      | (.ok content, after) => ({ content, emitted := 1 }, after)
      | (.error e, _) => ({ diagnostics := [.widgetFailed page w.id w.kind e.message] }, r)
    else ({}, r)

def compileWidgets (g : Registry) (s : Setting) (page : Nat) :
    List Widget → Resources → Progress × Resources
  | [], r => ({}, r)
  | w :: ws, r =>
    let (first, r) := compileWidget g s page w r
    let (others, r) := compileWidgets g s page ws r
    (first ++ others, r)

def compilePages (g : Registry) (s : Setting) :
    Nat → List Page → Resources → List PageProgress × Resources
  | _, [], r => ([], r)
  | index, p :: ps, r =>
    let (progress, r) := compileWidgets g s index p.widgets r
    let (others, r) := compilePages g s (index + 1) ps r
    (⟨index, p, progress⟩ :: others, r)

/-- The kinds of a list of widgets, each where it appears first. -/
def kindsOf (ws : List Widget) : List String := (ws.map Widget.kind).eraseDups

def resolveKind (g : Registry) (s : Setting) (ws : List Widget) (kind : String) (r : Resources) :
    List Diagnostic × Resources :=
  match g.kind? kind with
  | none => ([], r)
  | some k =>
    if k.descriptor.supports .resolveEntities && k.descriptor.supportsTarget s.target then
      match Emission.runWith (k.resolve s (ws.filter fun w => w.kind == kind)) r with
      | (.ok _, after) => ([], after)
      | (.error e, after) => ([.resolutionFailed kind e.message], after)
    else ([], r)

def resolveKinds (g : Registry) (s : Setting) (ws : List Widget) :
    List String → Resources → List Diagnostic × Resources
  | [], r => ([], r)
  | kind :: kinds, r =>
    let (first, r) := resolveKind g s ws kind r
    let (others, r) := resolveKinds g s ws kinds r
    (first ++ others, r)

def registerCondition (s : Setting) (r : Resources) (w : Widget) : Resources :=
  Kind.registerEntity s w.id w.condition.entity? r

/-- Declares the entities that guards read. Only drawing code has guards. -/
def registerConditions (s : Setting) (ws : List Widget) (r : Resources) : Resources :=
  if s.target = .procedural then ws.foldl (registerCondition s) r else r

def sensorsOf (s : Setting) (r : Resources) : List SensorDecl :=
  if s.options.emitSensors then SensorDecl.ofTriggers r.triggers else []

def proceduralPage (p : PageProgress) : ProceduralPage where
  index := p.index
  name := p.page.name
  refreshSeconds := p.page.refreshSeconds
  body := p.progress.content.statements

def retainedPage (p : PageProgress) : RetainedPage where
  id := "page_" ++ Number.natText p.index
  widgets := p.progress.content.nodes

def declarativePage (p : PageProgress) : DeclarativePage where
  id := p.index
  name := p.page.name
  instructions := p.progress.content.instructions

def output (s : Setting) (pages : List PageProgress) (r : Resources) : Output :=
  match s.target with
  | .procedural => .procedural {
      options := s.options
      fonts := Table.values r.fonts
      graphs := Table.values r.graphs
      sensors := sensorsOf s r
      colors := r.colors
      pages := pages.map proceduralPage }
  | .retained => .retained {
      fonts := Table.values r.fonts
      sensors := sensorsOf s r
      pages := pages.map retainedPage }
  | .declarative f => .declarative { flavor := f, pages := pages.map declarativePage }

def compile (g : Registry) (o : Options) (l : Layout) (t : Target) : Report :=
  let s : Setting := { target := t, dark := l.settings.darkMode, options := o }
  let (pages, r) := compilePages g s 0 l.pages {}
  let (unresolved, r) := resolveKinds g s l.widgets (kindsOf l.widgets) r
  let r := registerConditions s l.widgets r
  { target := t
    output := output s pages r
    diagnostics := pages.flatMap (fun p => p.progress.diagnostics) ++ unresolved
    emitted := Number.total (pages.map fun p => p.progress.emitted) }

def compileAll (g : Registry) (o : Options) (l : Layout) : List Report :=
  Target.all.map (compile g o l)

/-- The hint for a widget; none for a kind that is unknown or gives no hints. -/
def hint? (g : Registry) (w : Widget) (dark : Bool) : Except ExportError (Option Hint) :=
  match g.kind? w.kind with
  | some k => if k.descriptor.supports .renderHint then (k.hint dark w).map some else .ok none
  | none => .ok none

end Registry

end Dashboard
