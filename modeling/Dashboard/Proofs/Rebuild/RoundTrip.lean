import Dashboard.Proofs.Compile.Alike
import Dashboard.Proofs.Compile.Emitted
import Dashboard.Proofs.Layout.Portable
import Dashboard.Proofs.Rebuild.Taken
/-!
# Drawing code gives its layout back

The markers of the widgets that a compile emits bring these widgets back, and the drawing code around
them does not disturb. So the document of a portable layout that was emitted as a whole is rebuilt into
the same pages with the same widgets, and these compile to the same document.
-/

namespace Dashboard

open Text

/-- A widget as it comes back: all but its texts is the same, blank texts are absent, and of its
condition is there what a marker keeps. Its kind reads the same typed properties from it. -/
structure Widget.IsGivenBack (g : Registry) (w back : Widget) : Prop where
  id : back.id = w.id
  kind : back.kind = w.kind
  rect : back.rect = w.rect
  props : ∃ k bag, g.kind? w.kind = some k ∧ k.typed w = .ok bag ∧ k.typed back = .ok bag
  title : back.title = Marker.notBlank w.title
  entityId : back.entityId = Marker.notBlank w.entityId
  secondEntityId : back.secondEntityId = Marker.notBlank w.secondEntityId
  condition : back.condition = w.condition.kept

structure Page.IsGivenBack (g : Registry) (p back : Page) : Prop where
  name : back.name = p.name
  refreshSeconds : back.refreshSeconds = p.refreshSeconds
  widgets : List.Forall₂ (Widget.IsGivenBack g) p.widgets back.widgets

/-- A registry whose kinds of drawing code return their widgets. -/
def Registry.IsReturned (g : Registry) : Prop :=
  ∀ kind k, g.kind? kind = some k → k.serves .procedural = true → k.IsReturned

theorem Registry.isReturned_builtin : builtin.IsReturned := fun _ _ hk hserves =>
  Kind.isReturned_of_builtin (kind?_ofKinds hk).1 hserves

variable {g : Registry} {s : Setting}

namespace Widget

theorem IsPortable.hasEntities {w : Widget} (h : w.IsPortable) : w.HasEntities OneLine where
  first := fun _ he => (h.entity?_isReference he).2
  second := fun e he => (h.secondEntity e he).2
  condition := fun _ he => (h.conditionEntity_isReference he).2

theorem hasRawTexts_of_props (hr : g.IsReturned) (hs : s.target = .procedural) {w : Widget}
    (hprops : w.props.IsPortable) (hemitted : w.IsEmitted g s) : g.HasRawTexts OneLine w := by
  intro k hk bag hbag
  obtain ⟨k', hk', hserves, -⟩ := hemitted
  obtain rfl := Option.some.inj (hk.symm.trans hk')
  exact ((hr w.kind k hk (hs ▸ hserves)).portable w bag hprops hbag).hasRaw

/-- The block of an emitted widget brings the bare widget back with its typed properties, whatever the
bounds of its condition are and wherever its entity comes from. -/
theorem exists_restored (hg : g.IsWritten) (hr : g.IsReturned) (hs : s.target = .procedural) {w : Widget}
    (hbare : w.bare.IsPortable) (hprops : w.props.IsPortable) (hemitted : w.IsEmitted g s) {b : CodeBlock}
    (hb : b.IsBlockOf g w) (ordinal line : Nat) : ∃ k bag back, g.kind? w.kind = some k ∧
      k.IsReturned ∧ k.typed w = .ok bag ∧ Table.find? bag "entity_id" = none ∧
      b.marker.widget (g.kind? b.marker.kind) ordinal line = (back, []) ∧ w.bare.IsRestored bag back := by
  obtain ⟨k, bag, hk, hbag, -, hmarker⟩ := hb.written
  obtain ⟨k', hk', hserves, hemits⟩ := hemitted
  obtain rfl := Option.some.inj (hk.symm.trans hk')
  have hreturned := hr w.kind k hk (hs ▸ hserves)
  have hrestores := hreturned.restores s w bag hprops hbag hemits
  have hkey : Marker.IsKey w.bare.kind.toList := hg.key w.kind k hk
  have hentries : ∀ e ∈ Marker.entries w.bare bag k.aliases,
      Marker.IsKey e.1.toList ∧ '\t' ∉ e.2.toList := by
    refine List.forall_mem_append.mpr ⟨fun e he => ?_, hrestores.entries⟩
    exact ⟨Marker.isKey_headEntries w.bare e he, Marker.tab_not_mem_headEntries hbare hkey e he⟩
  rw [← Marker.encode_bare, Marker.ofLine?_encode hkey hentries] at hmarker
  have hkept := hrestores.marker
  rw [hg.id w.kind k hk] at hkept
  obtain ⟨back, hback, hrestored⟩ :=
    Marker.Restores.widget (w := w.bare) hkept hbare.id hbare.condition.finite ordinal line
  refine ⟨k, bag, back, hk, hreturned, hbag, hrestores.free, ?_, hrestored⟩
  rw [← Option.some.inj hmarker]
  exact (congrArg (fun k? => Marker.widget _ k? ordinal line) hk).trans hback

/-- The block of an emitted widget brings the widget back, and it is drawn as before. -/
theorem IsPortable.comesBack (hg : g.IsWritten) (hr : g.IsReturned) (hs : s.target = .procedural)
    {w : Widget} (h : w.IsPortable) (hemitted : w.IsEmitted g s) :
    w.ComesBack g fun w back => w.IsGivenBack g back ∧ w.IsDrawnAs g back := by
  intro b hb ordinal line
  obtain ⟨k, bag, back, hk, hreturned, hbag, hfree, hback, hbare⟩ :=
    exists_restored hg hr hs h.bare h.props hemitted hb ordinal line
  have hrestored : w.IsRestored bag back := by
    have hcondition := hbare.condition
    rw [Widget.bare, h.condition.writable_eq] at hcondition
    exact { hbare with condition := hcondition }
  have hresembles := hrestored.resembles h.named hfree
  refine ⟨back, hback, hrestored.id, ?_, hresembles, fun k' hk' s' => ?_⟩
  · exact ⟨hrestored.id, hrestored.kind, hrestored.rect,
      ⟨k, bag, hk, hbag, hreturned.typed w back bag hbag hrestored.props⟩, hrestored.title,
      hrestored.entityId, hrestored.secondEntityId, hrestored.condition⟩
  · obtain rfl := Option.some.inj (hk.symm.trans hk')
    exact hreturned.again s' w back bag hbag hrestored.props hresembles

end Widget

/-- The name of a portable page is as the scanner shows it. -/
theorem Page.IsPortable.givenBack {p back : Page} (hp : p.IsPortable)
    (h : p.ComesBack (fun w back => w.IsGivenBack g back ∧ w.IsDrawnAs g back) back) :
    p.IsGivenBack g back ∧ p.IsDrawnAs g back := by
  have hname : back.name = p.name := by
    rw [h.name, Rebuild.scannedName_eq hp.name.1 hp.name.2]
  exact ⟨⟨hname, h.refreshSeconds, h.widgets.imp fun _ _ hw => hw.1⟩,
    ⟨hname, h.refreshSeconds, h.widgets.imp fun _ _ hw => hw.2⟩⟩

namespace Registry

variable {o : Options} {l : Layout}

/-- Over kinds that write their widgets and return them: the document of a portable layout that was
emitted as a whole gives back its pages, without a notice, and these have the same document. -/
theorem exists_back_of_text (hg : g.IsWritten) (hr : g.IsReturned) (ho : o.IsOneLine) (hl : l.IsPortable)
    (hall : emittedLayout g o l .procedural = l) : ∃ back : Layout,
      Layout.ofConfiguration g (document g o l).text = (back, []) ∧
        List.Forall₂ (Page.IsGivenBack g) l.pages back.pages ∧
        document g o { back with settings := l.settings } = document g o l := by
  have hportable : ∀ w ∈ l.widgets, w.IsPortable := by
    intro w hw
    obtain ⟨p, hp, hwp⟩ := List.mem_flatMap.mp hw
    exact (hl.pages p hp).widgets w hwp
  have hemitted : ∀ w ∈ l.widgets, w.IsEmitted g (settingOf o l .procedural) := fun w hw =>
    isEmitted_of_emittedLayout_eq hall hw
  have hraw := oneLine_rawTexts hg ho
    (fun w hw => Widget.hasRawTexts_of_props hr rfl (hportable w hw).props (hemitted w hw))
    (fun w hw => (hportable w hw).hasEntities)
  obtain ⟨back, hback, hcomes⟩ := ofConfiguration_comesBack hg ho hl.hasPages hl.pageCount hraw hall
    (fun p hp => (hl.pages p hp).ids)
    (fun w hw => (hportable w hw).comesBack hg hr rfl (hemitted w hw))
  have hpages : List.Forall₂ (fun p q => p.IsGivenBack g q ∧ p.IsDrawnAs g q) l.pages back.pages :=
    ((List.forall₂_and_left l.pages back.pages).mpr ⟨hl.pages, hcomes⟩).imp fun p q hpq =>
      hpq.1.givenBack hpq.2
  exact ⟨back, hback, hpages.imp fun _ _ hp => hp.1,
    document_congr hg o rfl (hpages.imp fun _ _ hp => hp.2)⟩

/-- The round trip through drawing code. If every widget of a portable layout is emitted, its drawing
code is rebuilt, without a notice, into the same pages with the same widgets, and with the settings of
the layout these compile to the same text. -/
theorem ofConfiguration_compile_isGivenBack {o : Options} {l : Layout} (ho : o.IsOneLine)
    (hl : l.IsPortable) (hall : (compile builtin o l .procedural).emitted = l.widgets.length) :
    let text := (compile builtin o l .procedural).output.text
    ∃ back : Layout, Layout.ofConfiguration builtin text = (back, []) ∧
      List.Forall₂ (Page.IsGivenBack builtin) l.pages back.pages ∧
      (compile builtin o { back with settings := l.settings } .procedural).output.text = text := by
  obtain ⟨back, hback, hgiven, hagain⟩ := exists_back_of_text isWritten_builtin isReturned_builtin ho hl
    (emittedLayout_eq hall)
  simp only [text_compile]
  exact ⟨back, hback, hgiven, by rw [hagain]⟩

/-- A text with a guard, whose title looks like a line of drawing code. -/
def guardedText : Widget :=
  { Widget.make "note" "text" with
    title := some "if (page == 1) \x7b"
    secondEntityId := some " "
    condition := { entityId := some " sensor.door ", operator := some ">", lowest := some (.ofNat 3) }
    props := [("text", .string "\"\nid:x // widget:line")] }

def portableLayout : Layout :=
  { pages := [{ id := "page_0", name := "Hall \"1\"", refreshSeconds := some 30, widgets := [guardedText] },
      { id := "page_1", name := "", widgets := [.make "note" "shape_rect", .make "now" "datetime"] }] }

theorem isPortable_guardedText : guardedText.IsPortable where
  id := by decide
  idText := by decide
  title _ ht := Option.some.inj ht ▸ by decide
  entity := nofun
  secondEntity _ he := Option.some.inj he ▸ by decide
  named _ := rfl
  condition := {
    entity _ he := Option.some.inj he ▸ by decide
    operator _ hop := Option.some.inj hop ▸ by decide
    state := nofun
    finite := ⟨fun _ hx => Option.some.inj hx ▸ by decide, by simp [guardedText]⟩ }
  props := by
    intro e he
    obtain rfl := List.mem_singleton.mp he
    exact ⟨by decide, by decide⟩

theorem isPortable_portableLayout : portableLayout.IsPortable where
  hasPages := List.cons_ne_nil _ _
  pageCount := by decide
  pages := by
    refine List.forall_mem_cons.mpr ⟨⟨by decide, by decide, ?_⟩,
      List.forall_mem_singleton.mpr ⟨by decide, by decide, ?_⟩⟩
    · exact List.forall_mem_singleton.mpr isPortable_guardedText
    · exact List.forall_mem_cons.mpr ⟨Widget.isPortable_make (by decide) (by decide),
        List.forall_mem_singleton.mpr (Widget.isPortable_make (by decide) (by decide))⟩

theorem ofConfiguration_compile_isGivenBack_guarded :
    let text := (compile builtin {} portableLayout .procedural).output.text
    ∃ back : Layout, Layout.ofConfiguration builtin text = (back, []) ∧
      List.Forall₂ (Page.IsGivenBack builtin) portableLayout.pages back.pages ∧
      (compile builtin {} { back with settings := portableLayout.settings } .procedural).output.text =
        text :=
  ofConfiguration_compile_isGivenBack ⟨by decide, by decide, by decide, by decide⟩
    isPortable_portableLayout (by decide +kernel)

end Registry

end Dashboard
