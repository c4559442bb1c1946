import Dashboard.Layout.Session
/-!
# Editing in place

The edits of a session as steps that change a layout where it stands. Such a step does not go back when it fails: what
it wrote before would stay. But each of them looks before it writes, so an edit in place comes to the same as the
edit that keeps the old layout aside.
-/

namespace Dashboard

/-- A computation that changes a state and may fail. Failing does not undo what was changed. -/
abbrev InPlace (σ α : Type) := ExceptT LayoutError (StateM σ) α

namespace InPlace

variable {σ α β : Type}

def runOn (e : InPlace σ α) (s : σ) : Except LayoutError α × σ := StateT.run (m := Id) (ExceptT.run e) s

@[simp] theorem runOn_pure (a : α) (s : σ) : runOn (pure a) s = (.ok a, s) := rfl

@[simp] theorem runOn_throw (cause : LayoutError) (s : σ) :
    runOn (throw cause : InPlace σ α) s = (.error cause, s) := rfl

@[simp] theorem runOn_get (s : σ) : runOn get s = (.ok s, s) := rfl

@[simp] theorem runOn_set (new s : σ) : runOn (set new) s = (.ok ⟨⟩, new) := rfl

@[simp] theorem runOn_modify (f : σ → σ) (s : σ) : runOn (modify f) s = (.ok ⟨⟩, f s) := rfl

theorem runOn_bind (e : InPlace σ α) (f : α → InPlace σ β) (s : σ) : runOn (e >>= f) s =
    match runOn e s with
    | (.ok a, s) => runOn (f a) s
    | (.error cause, s) => (.error cause, s) := by
  change runOn (ExceptT.bind e f) s = _
  simp only [ExceptT.bind, ExceptT.mk, runOn, ExceptT.run, StateT.run, bind, StateT.bind]
  rcases e s with ⟨cause | a, after⟩ <;> rfl

theorem runOn_map (f : α → β) (e : InPlace σ α) (s : σ) : runOn (f <$> e) s =
    match runOn e s with
    | (.ok a, s) => (.ok (f a), s)
    | (.error cause, s) => (.error cause, s) := by
  rw [map_eq_pure_bind, runOn_bind]
  rcases runOn e s with ⟨cause | a, after⟩ <;> rfl

end InPlace

open InPlace

namespace Page

def addInPlace (w : Widget) : InPlace Page Unit := do
  let p ← get
  if (p.widget? w.id).isSome then throw (.duplicateWidget w.id)
  set { p with widgets := p.widgets ++ [w] }

theorem runOn_addInPlace (w : Widget) (p : Page) : (addInPlace w).runOn p =
    match p.addWidget w with
    | .ok q => (.ok (), q)
    | .error cause => (.error cause, p) := by
  unfold addInPlace addWidget
  by_cases h : (p.widget? w.id).isSome = true <;> simp [runOn_bind, h]

def removeInPlace (id : String) : InPlace Page Widget := do
  let p ← get
  match p.widget? id with
  | none => throw (.widgetNotFound id)
  | some w =>
    set { p with widgets := dropFirst id p.widgets }
    return w

theorem runOn_removeInPlace (id : String) (p : Page) : (removeInPlace id).runOn p =
    match p.removeWidget id with
    | .ok (w, q) => (.ok w, q)
    | .error cause => (.error cause, p) := by
  unfold removeInPlace removeWidget
  cases h : p.widget? id <;> simp [runOn_bind, runOn_map, h]

def changeInPlace (id : String) (change : Widget → Widget) : InPlace Page (Option Widget) := do
  let p ← get
  match p.widget? id with
  | none => return none
  | some w =>
    set { p with widgets := changeFirst id change p.widgets }
    return some (change w)

theorem runOn_changeInPlace (id : String) (change : Widget → Widget) (p : Page) :
    (changeInPlace id change).runOn p =
      match p.changeWidget id change with
      | some (w, q) => (.ok (some w), q)
      | none => (.ok none, p) := by
  unfold changeInPlace changeWidget
  cases h : p.widget? id <;> simp [runOn_bind, runOn_map, h]

end Page

namespace Layout

variable {α : Type}

/-- Works on a page of a layout. The page is written back however the work ends. -/
def onPage (index : Nat) (e : InPlace Page α) : InPlace Layout α := do
  let l ← get
  match l.pages[index]? with
  | none => throw (.pageNotFound index)
  | some p =>
    let (answer, p) := e.runOn p
    set (l.setPage index p)
    match answer with
    | .ok a => return a
    | .error cause => throw cause

theorem setPage_self {l : Layout} {index : Nat} {p : Page} (h : l.page? index = .ok p) : l.setPage index p = l := by
  unfold page? at h
  split at h
  · next q hq =>
    obtain ⟨hlt, rfl⟩ := List.getElem?_eq_some_iff.mp hq
    cases h
    rw [setPage, List.set_getElem_self]
  · exact nomatch h

theorem runOn_onPage (index : Nat) (e : InPlace Page α) (l : Layout) : (onPage index e).runOn l =
    match l.page? index with
    | .ok p => ((e.runOn p).1, l.setPage index (e.runOn p).2)
    | .error cause => (.error cause, l) := by
  unfold onPage page?
  cases hp : l.pages[index]? with
  | none => simp [runOn_bind, hp]
  | some p =>
    rcases hrun : e.runOn p with ⟨cause | a, q⟩ <;> simp [runOn_bind, runOn_map, hp, hrun]

end Layout

namespace Edit

def inPlace : Edit → InPlace Layout EditAnswer
  | replace new => do
    set new
    return .done
  | addPage index name refreshSeconds => do
    modify fun l => l.addPage index name refreshSeconds
    return .done
  | setDarkMode dark => do
    modify fun l => l.withDarkMode dark
    return .done
  | addWidget page w => do
    Layout.onPage page (Page.addInPlace w)
    return .done
  | removeWidget page id => do
    let w ← Layout.onPage page (Page.removeInPlace id)
    return .widget (some w)
  | setGeometry page id x y width height => do
    let w ← Layout.onPage page (Page.changeInPlace id fun w => w.withGeometry x y width height)
    return .widget w
  | setProp page id key value => do
    let w ← Layout.onPage page (Page.changeInPlace id fun w => w.withProp key value)
    return .widget w
  | setEntity page id entity => do
    let w ← Layout.onPage page (Page.changeInPlace id fun w => { w with entityId := entity })
    return .widget w
  | rebuild text => do
    let rebuilt := Layout.ofConfiguration .builtin text
    set rebuilt.1
    return .notices rebuilt.2
  | rebuildOwn => do
    let rebuilt := Layout.ofConfiguration .builtin (← get).drawingCode
    set rebuilt.1
    return .notices rebuilt.2

theorem runOn_change (page : Nat) (id : String) (change : Widget → Widget) (l : Layout) :
    InPlace.runOn (do
      let w ← Layout.onPage page (Page.changeInPlace id change)
      return EditAnswer.widget w) l =
    match l.changeWidget page id change with
    | .ok (answer, l) => (.ok answer, l)
    | .error cause => (.error cause, l) := by
  rw [runOn_bind, Layout.runOn_onPage, Layout.changeWidget]
  cases hp : l.page? page with
  | error cause => rfl
  | ok p =>
    simp only [Page.runOn_changeInPlace, bind, Except.bind]
    cases hchanged : p.changeWidget id change with
    | none => rw [Layout.setPage_self hp]; rfl
    | some r => rfl

/-- An edit in place changes what the edit changes, and one that fails has changed nothing. -/
theorem runOn_inPlace (e : Edit) (l : Layout) : e.inPlace.runOn l = l.edit e := by
  cases e with
  | replace new => rfl
  | addPage index name refreshSeconds => rfl
  | setDarkMode dark => rfl
  | addWidget page w =>
    rw [inPlace, runOn_bind, Layout.runOn_onPage, Layout.edit, apply]
    cases hp : l.page? page with
    | error cause => rfl
    | ok p =>
      simp only [Page.runOn_addInPlace]
      cases hadded : p.addWidget w with
      | error cause => simp [Layout.setPage_self hp, bind, Except.bind, hadded]
      | ok q => simp only [bind, Except.bind, hadded]; rfl
  | removeWidget page id =>
    rw [inPlace, runOn_bind, Layout.runOn_onPage, Layout.edit, apply]
    cases hp : l.page? page with
    | error cause => rfl
    | ok p =>
      simp only [Page.runOn_removeInPlace]
      cases hremoved : p.removeWidget id with
      | error cause => simp [Layout.setPage_self hp, bind, Except.bind, hremoved]
      | ok r => simp only [bind, Except.bind, hremoved]; rfl
  | setGeometry page id x y width height => exact runOn_change page id _ l
  | setProp page id key value => exact runOn_change page id _ l
  | setEntity page id entity => exact runOn_change page id _ l
  | rebuild text => rfl
  | rebuildOwn => rfl

end Edit

end Dashboard
