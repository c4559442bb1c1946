import Dashboard.Proofs.Layout.InPlace
import Dashboard.Proofs.Rebuild.Accounts
/-!
# Sessions

What every edit keeps and so every session keeps: the ids of the widgets on a page are distinct. The text a layout is
rebuilt from is arbitrary, but a rebuild adds its widgets one at a time and refuses an id that the page has.
An edit that fails does so for one of three reasons, before it has changed anything.
-/

namespace Dashboard

variable {l m : Layout} {p q : Page} {w : Widget} {id : String}

namespace Page

theorem dropFirst_eq_eraseP (id : String) (ws : List Widget) : dropFirst id ws = ws.eraseP fun w => w.id == id := by
  induction ws with
  | nil => rfl
  | cons w ws ih => by_cases h : w.id = id <;> simp [dropFirst, h, ih]

theorem removeWidget_of_addWidget (h : p.addWidget w = .ok q) : q.removeWidget w.id = .ok (w, p) := by
  obtain ⟨hid, rfl⟩ := eq_of_addWidget h
  have hother : ∀ v ∈ p.widgets, ¬ (v.id == w.id) = true := by
    intro v hv heq
    exact hid (List.mem_map.mpr ⟨v, hv, beq_iff_eq.mp heq⟩)
  have hfound : (p.widgets ++ [w]).find? (fun v => v.id == w.id) = some w := by
    rw [List.find?_append, List.find?_eq_none.mpr hother]
    simp
  have hdropped : dropFirst w.id (p.widgets ++ [w]) = p.widgets := by
    rw [dropFirst_eq_eraseP, List.eraseP_append_right _ hother]
    simp
  simp [removeWidget, widget?, hfound, hdropped]

/-- Removing a widget leaves the others in their order. -/
theorem exists_of_removeWidget (h : p.removeWidget id = .ok (w, q)) :
    ∃ front back, p.widgets = front ++ w :: back ∧ w.id = id ∧ q = { p with widgets := front ++ back } := by
  unfold removeWidget at h
  split at h
  · exact nomatch h
  · next v hv =>
    cases h
    obtain ⟨hid, front, back, heq, hfront⟩ := List.find?_eq_some_iff_append.mp hv
    have hne : ∀ v ∈ front, ¬ (v.id == id) = true := fun v hv => by simpa using hfront v hv
    refine ⟨front, back, heq, beq_iff_eq.mp hid, ?_⟩
    rw [dropFirst_eq_eraseP, heq, List.eraseP_append_right _ hne]
    simp [beq_iff_eq.mp hid]

theorem nodup_removeWidget (hp : (p.widgets.map Widget.id).Nodup) (h : p.removeWidget id = .ok (w, q)) :
    (q.widgets.map Widget.id).Nodup := by
  obtain ⟨front, back, heq, -, rfl⟩ := exists_of_removeWidget h
  rw [heq] at hp
  exact hp.sublist ((List.sublist_cons_self w back).append_left front |>.map Widget.id)

theorem nodup_changeWidget {change : Widget → Widget} (hchange : ∀ w, (change w).id = w.id)
    (hp : (p.widgets.map Widget.id).Nodup) (h : p.changeWidget id change = some (w, q)) :
    (q.widgets.map Widget.id).Nodup := by
  obtain ⟨v, -, heq⟩ := Option.map_eq_some_iff.mp h
  cases heq
  rwa [map_id_changeFirst hchange]

end Page

namespace Layout

def HasDistinctIds (l : Layout) : Prop := ∀ p ∈ l.pages, (p.widgets.map Widget.id).Nodup

theorem setPage_setPage (l : Layout) (index : Nat) (p q : Page) :
    (l.setPage index p).setPage index q = l.setPage index q := by
  simp [setPage, List.set_set]

theorem page?_eq_ok {index : Nat} : l.page? index = .ok p ↔ l.pages[index]? = some p := by
  unfold page?
  cases l.pages[index]? <;> simp

namespace HasDistinctIds

variable {index : Nat}

theorem page? (h : l.HasDistinctIds) (hp : l.page? index = .ok p) : (p.widgets.map Widget.id).Nodup :=
  h p (List.mem_of_getElem? (page?_eq_ok.mp hp))

theorem setPage (h : l.HasDistinctIds) (hp : (p.widgets.map Widget.id).Nodup) : (l.setPage index p).HasDistinctIds := by
  intro q hq
  rcases List.mem_or_eq_of_mem_set hq with hq | rfl
  · exact h q hq
  · exact hp

theorem changeWidget (h : l.HasDistinctIds) {change : Widget → Widget} {answer : EditAnswer}
    (heq : l.changeWidget index id change = .ok (answer, m)) (hchange : ∀ w, (change w).id = w.id) :
    m.HasDistinctIds := by
  unfold Layout.changeWidget at heq
  cases hp : l.page? index with
  | error cause => simp [hp, bind, Except.bind] at heq
  | ok p =>
    simp only [hp, bind, Except.bind] at heq
    split at heq
    · next hchanged =>
      cases heq
      exact h.setPage (Page.nodup_changeWidget hchange (h.page? hp) hchanged)
    · cases heq
      exact h

theorem ofConfiguration (g : Registry) (text : String) : (Layout.ofConfiguration g text).1.HasDistinctIds :=
  forall_pages_ofConfiguration g.keeps_nodup text

end HasDistinctIds

end Layout

namespace Edit

/-- A layout from outside that takes the place of the present one has to have distinct ids. Nothing is
asked of the other edits. -/
def IsSound : Edit → Prop
  | replace new => new.HasDistinctIds
  | _ => True

def page? : Edit → Option Nat
  | addWidget page _ | removeWidget page _ | setGeometry page .. | setProp page .. | setEntity page .. => some page
  | _ => none

theorem apply_addWidget {index : Nat} {answer : EditAnswer} (h : (addWidget index w).apply l = .ok (answer, m)) :
    ∃ p q, l.page? index = .ok p ∧ p.addWidget w = .ok q ∧ answer = .done ∧ m = l.setPage index q := by
  unfold apply at h
  cases hp : l.page? index with
  | error cause => simp [hp, bind, Except.bind] at h
  | ok p =>
    cases hadded : p.addWidget w with
    | error cause => simp [hp, hadded, bind, Except.bind] at h
    | ok q =>
      simp only [hp, hadded, bind, Except.bind] at h
      cases h
      exact ⟨p, q, rfl, hadded, rfl, rfl⟩

theorem apply_removeWidget {index : Nat} {answer : EditAnswer}
    (h : (removeWidget index id).apply l = .ok (answer, m)) :
    ∃ p w q, l.page? index = .ok p ∧ p.removeWidget id = .ok (w, q) ∧ answer = .widget (some w) ∧
      m = l.setPage index q := by
  unfold apply at h
  cases hp : l.page? index with
  | error cause => simp [hp, bind, Except.bind] at h
  | ok p =>
    cases hremoved : p.removeWidget id with
    | error cause => simp [hp, hremoved, bind, Except.bind] at h
    | ok r =>
      simp only [hp, hremoved, bind, Except.bind] at h
      cases h
      exact ⟨p, r.1, r.2, rfl, hremoved, rfl, rfl⟩

/-- Why a layout refuses an edit. -/
inductive IsRefused (l : Layout) : Edit → LayoutError → Prop
  | page {e : Edit} {index : Nat} (he : e.page? = some index) (hlen : l.pages.length ≤ index) :
      IsRefused l e (.pageNotFound index)
  | taken {index : Nat} {p : Page} {w : Widget} (hp : l.pages[index]? = some p)
      (hid : w.id ∈ p.widgets.map Widget.id) : IsRefused l (.addWidget index w) (.duplicateWidget w.id)
  | absent {index : Nat} {p : Page} {id : String} (hp : l.pages[index]? = some p)
      (hid : id ∉ p.widgets.map Widget.id) : IsRefused l (.removeWidget index id) (.widgetNotFound id)

end Edit

namespace Layout

theorem HasDistinctIds.apply (h : l.HasDistinctIds) {e : Edit} (he : e.IsSound) {answer : EditAnswer}
    (heq : e.apply l = .ok (answer, m)) : m.HasDistinctIds := by
  cases e with
  | replace new => cases heq; exact he
  | addPage index name refreshSeconds =>
    cases heq
    intro p hp
    rcases List.mem_append.mp hp with hp | hp
    · exact h p hp
    · rw [List.mem_singleton.mp hp]
      exact List.nodup_nil
  | setDarkMode dark => cases heq; exact h
  | addWidget page w =>
    obtain ⟨p, q, hp, hadded, rfl, rfl⟩ := Edit.apply_addWidget heq
    exact h.setPage (Page.nodup_addWidget (h.page? hp) hadded)
  | removeWidget page id =>
    obtain ⟨p, w, q, hp, hremoved, rfl, rfl⟩ := Edit.apply_removeWidget heq
    exact h.setPage (Page.nodup_removeWidget (h.page? hp) hremoved)
  | setGeometry | setProp | setEntity => exact h.changeWidget heq fun w => rfl
  | rebuild text => cases heq; exact .ofConfiguration .builtin text
  | rebuildOwn => cases heq; exact .ofConfiguration .builtin l.drawingCode

theorem edit_eq_ok {e : Edit} {answer : EditAnswer} :
    (l.edit e).1 = .ok answer ↔ e.apply l = .ok (answer, (l.edit e).2) := by
  unfold edit
  rcases e.apply l with cause | ⟨other, m⟩ <;> simp

theorem edit_eq_error {e : Edit} {cause : LayoutError} : (l.edit e).1 = .error cause ↔ e.apply l = .error cause := by
  unfold edit
  rcases e.apply l with other | ⟨answer, m⟩ <;> simp

theorem edit_of_error {e : Edit} {cause : LayoutError} (h : (l.edit e).1 = .error cause) : (l.edit e).2 = l := by
  rw [edit, edit_eq_error.mp h]

theorem HasDistinctIds.edit (h : l.HasDistinctIds) {e : Edit} (he : e.IsSound) : (l.edit e).2.HasDistinctIds := by
  cases hanswer : (l.edit e).1 with
  | error cause => rwa [edit_of_error hanswer]
  | ok answer => exact h.apply he (edit_eq_ok.mp hanswer)

/-- The layout at the end of a session. -/
def after (l : Layout) (es : List Edit) : Layout := es.foldl (fun l e => (l.edit e).2) l

theorem HasDistinctIds.after {es : List Edit} (h : l.HasDistinctIds) (hes : ∀ e ∈ es, e.IsSound) :
    (l.after es).HasDistinctIds := by
  induction es generalizing l with
  | nil => exact h
  | cons e es ih => exact ih (h.edit (hes e List.mem_cons_self)) fun e he => hes e (List.mem_cons_of_mem _ he)

theorem page?_eq_error {index : Nat} {cause : LayoutError} :
    l.page? index = .error cause ↔ l.pages.length ≤ index ∧ cause = .pageNotFound index := by
  unfold page?
  cases hp : l.pages[index]? with
  | none => simp [List.getElem?_eq_none_iff.mp hp, eq_comm]
  | some p => simpa using fun hlen => absurd hp (by simp [List.getElem?_eq_none hlen])

theorem changeWidget_eq_error {index : Nat} {change : Widget → Widget} {cause : LayoutError} :
    l.changeWidget index id change = .error cause ↔ l.pages.length ≤ index ∧ cause = .pageNotFound index := by
  rw [← page?_eq_error, changeWidget]
  cases hp : l.page? index with
  | error other => simp [bind, Except.bind]
  | ok p =>
    simp only [bind, Except.bind]
    split <;> simp [pure, Except.pure]

end Layout

namespace Edit

theorem isRefused_of_apply {e : Edit} {cause : LayoutError} (h : e.apply l = .error cause) : IsRefused l e cause := by
  cases e with
  | replace | addPage | setDarkMode | rebuild | rebuildOwn => exact nomatch h
  | setGeometry | setProp | setEntity =>
    obtain ⟨hlen, rfl⟩ := Layout.changeWidget_eq_error.mp h
    exact .page rfl hlen
  | addWidget index w =>
    unfold apply at h
    cases hp : l.page? index with
    | error other =>
      obtain ⟨hlen, rfl⟩ := Layout.page?_eq_error.mp hp
      simp only [hp, bind, Except.bind] at h
      cases h
      exact .page rfl hlen
    | ok p =>
      by_cases hid : w.id ∈ p.widgets.map Widget.id
      · simp only [hp, Page.addWidget_of_mem hid, bind, Except.bind] at h
        cases h
        exact .taken (Layout.page?_eq_ok.mp hp) hid
      · simp [hp, Page.addWidget_of_not_mem hid, bind, Except.bind, pure, Except.pure] at h
  | removeWidget index id =>
    unfold apply at h
    cases hp : l.page? index with
    | error other =>
      obtain ⟨hlen, rfl⟩ := Layout.page?_eq_error.mp hp
      simp only [hp, bind, Except.bind] at h
      cases h
      exact .page rfl hlen
    | ok p =>
      cases hfound : p.widget? id with
      | none =>
        simp only [hp, Page.removeWidget, hfound, bind, Except.bind] at h
        cases h
        exact .absent (Layout.page?_eq_ok.mp hp) fun hid => by simp [← Page.widget?_isSome, hfound] at hid
      | some w => simp [hp, Page.removeWidget, hfound, bind, Except.bind, pure, Except.pure] at h

theorem apply_of_isRefused {e : Edit} {cause : LayoutError} (h : IsRefused l e cause) : e.apply l = .error cause := by
  cases h with
  | @page _ index he hlen =>
    have hpage : l.page? index = .error (.pageNotFound index) := Layout.page?_eq_error.mpr ⟨hlen, rfl⟩
    cases e with
    | replace | addPage | setDarkMode | rebuild | rebuildOwn => exact nomatch he
    | addWidget | removeWidget =>
      cases he
      simp [apply, hpage, bind, Except.bind]
    | setGeometry | setProp | setEntity =>
      cases he
      exact Layout.changeWidget_eq_error.mpr ⟨hlen, rfl⟩
  | taken hp hid => simp [apply, Layout.page?_eq_ok.mpr hp, Page.addWidget_of_mem hid, bind, Except.bind]
  | @absent index p id hp hid =>
    have hnone : p.widget? id = none := by
      rw [← Page.widget?_isSome] at hid
      simpa using hid
    simp [apply, Layout.page?_eq_ok.mpr hp, Page.removeWidget, hnone, bind, Except.bind]

theorem apply_eq_error {e : Edit} {cause : LayoutError} : e.apply l = .error cause ↔ IsRefused l e cause :=
  ⟨isRefused_of_apply, apply_of_isRefused⟩

end Edit

namespace Layout

variable {index : Nat}

theorem edit_addWidget {answer : EditAnswer} (h : (l.edit (.addWidget index w)).1 = .ok answer) :
    ∃ p, l.pages[index]? = some p ∧ w.id ∉ p.widgets.map Widget.id ∧
      (l.edit (.addWidget index w)).2 = l.setPage index { p with widgets := p.widgets ++ [w] } ∧
      (l.edit (.addWidget index w)).2.edit (.removeWidget index w.id) = (.ok (.widget (some w)), l) := by
  obtain ⟨p, q, hp, hadded, -, hm⟩ := Edit.apply_addWidget (edit_eq_ok.mp h)
  obtain ⟨hid, rfl⟩ := Page.eq_of_addWidget hadded
  have hat := page?_eq_ok.mp hp
  obtain ⟨hlt, -⟩ := List.getElem?_eq_some_iff.mp hat
  have hnow : (l.setPage index { p with widgets := p.widgets ++ [w] }).page? index =
      .ok { p with widgets := p.widgets ++ [w] } :=
    page?_eq_ok.mpr (List.getElem?_set_self hlt)
  refine ⟨p, hat, hid, hm, ?_⟩
  rw [hm, edit, Edit.apply]
  simp only [hnow, Page.removeWidget_of_addWidget hadded, setPage_setPage, setPage_self hp, bind, Except.bind]
  rfl

theorem edit_removeWidget (h : l.HasDistinctIds) {answer : EditAnswer}
    (heq : (l.edit (.removeWidget index id)).1 = .ok answer) :
    ∃ p front w back, l.pages[index]? = some p ∧ p.widgets = front ++ w :: back ∧ w.id = id ∧
      id ∉ (front ++ back).map Widget.id ∧ answer = .widget (some w) ∧
      (l.edit (.removeWidget index id)).2 = l.setPage index { p with widgets := front ++ back } := by
  obtain ⟨p, w, q, hp, hremoved, rfl, hm⟩ := Edit.apply_removeWidget (edit_eq_ok.mp heq)
  obtain ⟨front, back, hwidgets, rfl, rfl⟩ := Page.exists_of_removeWidget hremoved
  have hdistinct := h.page? hp
  rw [hwidgets] at hdistinct
  refine ⟨p, front, w, back, page?_eq_ok.mp hp, hwidgets, rfl, ?_, rfl, hm⟩
  exact (List.nodup_cons.mp ((List.perm_middle.map Widget.id).nodup_iff.mp hdistinct)).1

end Layout

/-- Whatever edits a session has made of a layout with distinct ids, the ids are still distinct. The next
edit may be made in place: one that is refused leaves nothing behind, and it is refused for one of the three
reasons only. An added widget is the last of its page, and removing it again restores the layout. What is
left after a removal keeps its order. -/
theorem Layout.session_spec (h : l.HasDistinctIds) {es : List Edit} (hes : ∀ e ∈ es, e.IsSound) :
    let m := l.after es
    m.HasDistinctIds ∧
    (∀ e : Edit, e.inPlace.runOn m = m.edit e) ∧
    (∀ (e : Edit) cause, (e.inPlace.runOn m).1 = .error cause → (e.inPlace.runOn m).2 = m) ∧
    (∀ e cause, (m.edit e).1 = .error cause ↔ Edit.IsRefused m e cause) ∧
    (∀ index w answer, (m.edit (.addWidget index w)).1 = .ok answer →
      ∃ p, m.pages[index]? = some p ∧ w.id ∉ p.widgets.map Widget.id ∧
        (m.edit (.addWidget index w)).2 = m.setPage index { p with widgets := p.widgets ++ [w] } ∧
        (m.edit (.addWidget index w)).2.edit (.removeWidget index w.id) = (.ok (.widget (some w)), m)) ∧
    (∀ index id answer, (m.edit (.removeWidget index id)).1 = .ok answer →
      ∃ p front w back, m.pages[index]? = some p ∧ p.widgets = front ++ w :: back ∧ w.id = id ∧
        id ∉ (front ++ back).map Widget.id ∧ answer = .widget (some w) ∧
        (m.edit (.removeWidget index id)).2 = m.setPage index { p with widgets := front ++ back }) := by
  intro m
  have hm : m.HasDistinctIds := h.after hes
  refine ⟨hm, fun e => e.runOn_inPlace m, ?_, fun e cause => edit_eq_error.trans Edit.apply_eq_error,
    fun index w answer => edit_addWidget, fun index id answer => edit_removeWidget hm⟩
  intro e cause hcause
  rw [e.runOn_inPlace] at hcause ⊢
  exact edit_of_error hcause

/-- A session in which a widget is added twice, the layout is replaced and then rebuilt from its own drawing code. -/
theorem Layout.session_spec_mixed :
    let clock := Widget.make "w_1" "clock"
    let es := [.addWidget 0 clock, .addWidget 0 clock, .replace .single, .addWidget 3 clock, .rebuildOwn]
    Layout.single.HasDistinctIds ∧ (∀ e ∈ es, Edit.IsSound e) ∧ (Layout.single.after es).HasDistinctIds := by
  intro clock es
  have hsingle : Layout.single.HasDistinctIds := by simp [HasDistinctIds, single, Page.make]
  have hes : ∀ e ∈ es, Edit.IsSound e := by simp [es, Edit.IsSound, hsingle]
  exact ⟨hsingle, hes, (Layout.session_spec hsingle hes).1⟩

end Dashboard
