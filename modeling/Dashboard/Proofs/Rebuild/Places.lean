import Dashboard.Proofs.Rebuild.Pages
/-!
# The places of pages

The pages of a table become the pages of a layout one after the other. A page comes to the place of its
index, behind empty pages for the indices that the table does not have. Only where too many are missing
it comes to the next place at once, and a notice says so. Thus no page gets lost and no two pages meet,
and besides the pages of the table all are empty.
-/

namespace Dashboard

/-- Whether a notice says that the id of a widget was taken. -/
def Notice.isDuplicate : Notice → Bool
  | .duplicate .. => true
  | _ => false

namespace PageTable

/-- The place of the page of an index, if the pages from a place on are free. -/
def nextPlace (place index : Nat) : Nat :=
  if index - place > widestGap then place else place + (index - place)

/-- The place that the page of an index gets when the pages of a table are put from a place on. -/
def placeFrom (place index : Nat) : PageTable → Nat
  | [] => place
  | (i, _) :: t => if i = index then nextPlace place i else placeFrom (nextPlace place i + 1) index t

variable {t : PageTable} {place index : Nat}

theorem le_nextPlace (place index : Nat) : place ≤ nextPlace place index := by
  unfold nextPlace
  split
  · exact Nat.le_refl place
  · exact Nat.le_add_right place _

theorem nextPlace_le (h : place ≤ index) : nextPlace place index ≤ index := by
  unfold nextPlace
  split
  · exact h
  · exact Nat.le_of_eq (Nat.add_sub_cancel' h)

theorem placeFrom_self (p : Page) : placeFrom place index ((index, p) :: t) = nextPlace place index :=
  if_pos rfl

theorem placeFrom_of_ne {i : Nat} (p : Page) (h : i ≠ index) :
    placeFrom place index ((i, p) :: t) = placeFrom (nextPlace place i + 1) index t := if_neg h

theorem le_placeFrom (place index : Nat) (t : PageTable) : place ≤ placeFrom place index t := by
  induction t generalizing place with
  | nil => exact Nat.le_refl place
  | cons e t ih =>
    have hnext := le_nextPlace place e.1
    rw [placeFrom]
    split
    · exact hnext
    · exact Nat.le_trans (Nat.le_succ_of_le hnext) (ih _)

/-- What the first page of a table adds to a layout: empty pages and the page itself at its place. -/
structure LaysFirst (place index : Nat) (p : Page) (gap : List Page) (q : Page) (notices : List Notice) :
    Prop where
  lands : place + gap.length = nextPlace place index
  empty : ∀ e ∈ gap, e.widgets = []
  kept : q.widgets = p.widgets
  unlike : ∀ n ∈ notices, n.isDuplicate = false
  told : place ≤ index → nextPlace place index = index ∨ .moved index (nextPlace place index) ∈ notices

theorem pagesFrom_cons (place index : Nat) (p : Page) (t : PageTable) : ∃ gap q notices,
    LaysFirst place index p gap q notices ∧ pagesFrom place ((index, p) :: t) =
      (gap ++ q :: (pagesFrom (nextPlace place index + 1) t).1,
        notices ++ (pagesFrom (nextPlace place index + 1) t).2) := by
  by_cases hfar : index - place > widestGap
  · have hplace : nextPlace place index = place := if_pos hfar
    have htold : Notice.moved index (nextPlace place index) ∈ [Notice.moved index place] := by
      rw [hplace]
      exact List.mem_singleton_self _
    rw [pagesFrom, if_pos hfar, hplace]
    refine ⟨[], renumber index place p, [.moved index place], ⟨hplace.symm, ?_, rfl, ?_, ?_⟩, rfl⟩
    · exact fun _ he => absurd he List.not_mem_nil
    · exact List.forall_mem_singleton.mpr rfl
    · exact fun _ => .inr htold
  · have hplace : nextPlace place index = place + (index - place) := if_neg hfar
    rw [pagesFrom, if_neg hfar, hplace]
    refine ⟨emptyPages place (index - place), p, [], ⟨?_, ?_, rfl, ?_, ?_⟩, rfl⟩
    · rw [hplace, emptyPages, List.length_map, List.length_range]
    · intro e he
      obtain ⟨i, -, rfl⟩ := List.mem_map.mp he
      rfl
    · exact fun _ hn => absurd hn List.not_mem_nil
    · exact fun hle => .inl (hplace.trans (Nat.add_sub_cancel' hle))

theorem isDuplicate_pagesFrom (place : Nat) (t : PageTable) :
    ∀ n ∈ (pagesFrom place t).2, n.isDuplicate = false := by
  induction t generalizing place with
  | nil => exact fun _ hn => absurd hn List.not_mem_nil
  | cons e t ih =>
    obtain ⟨gap, q, notices, hfirst, heq⟩ := pagesFrom_cons place e.1 e.2 t
    rw [heq]
    exact List.forall_mem_append.mpr ⟨hfirst.unlike, ih _⟩

/-- A layout has the widgets of the table, in their order. -/
theorem flatMap_pagesFrom (place : Nat) (t : PageTable) :
    (pagesFrom place t).1.flatMap Page.widgets = t.flatMap fun e => e.2.widgets := by
  induction t generalizing place with
  | nil => rfl
  | cons e t ih =>
    obtain ⟨gap, q, notices, hfirst, heq⟩ := pagesFrom_cons place e.1 e.2 t
    have hgap : gap.flatMap Page.widgets = [] := List.flatMap_eq_nil_iff.mpr hfirst.empty
    rw [heq, List.flatMap_append, hgap, List.nil_append, List.flatMap_cons, List.flatMap_cons, ih,
      hfirst.kept]

/-! ## Every page has a place of its own -/

theorem placeFrom_lt (h : Ascending t) {i j : Nat} (hi : i ∈ indices t) (hj : j ∈ indices t) (hij : i < j)
    (place : Nat) : placeFrom place i t < placeFrom place j t := by
  induction t generalizing place with
  | nil => exact absurd hi List.not_mem_nil
  | cons e t ih =>
    obtain ⟨k, p⟩ := e
    have hk : ∀ i ∈ indices t, k < i := (List.pairwise_cons.mp h).1
    have hkj : k ≠ j := by
      rcases List.mem_cons.mp hi with rfl | hi
      · exact Nat.ne_of_lt hij
      · exact Nat.ne_of_lt (Nat.lt_trans (hk i hi) hij)
    have hjt : j ∈ indices t := (List.mem_cons.mp hj).resolve_left hkj.symm
    rw [placeFrom_of_ne p hkj]
    rcases List.mem_cons.mp hi with rfl | hi
    · rw [placeFrom_self]
      exact le_placeFrom _ j t
    · rw [placeFrom_of_ne p (Nat.ne_of_lt (hk i hi))]
      exact ih (List.pairwise_cons.mp h).2 hi hjt _

/-- A page that is not at the place of its index was moved, and a notice says so. -/
theorem placeFrom_moved (h : Ascending t) (hle : ∀ i ∈ indices t, place ≤ i) (hindex : index ∈ indices t) :
    placeFrom place index t = index ∨
      .moved index (placeFrom place index t) ∈ (pagesFrom place t).2 := by
  induction t generalizing place with
  | nil => exact absurd hindex List.not_mem_nil
  | cons e t ih =>
    obtain ⟨k, p⟩ := e
    have hk : ∀ i ∈ indices t, k < i := (List.pairwise_cons.mp h).1
    have hplace : place ≤ k := hle k List.mem_cons_self
    obtain ⟨gap, q, notices, hfirst, heq⟩ := pagesFrom_cons place k p t
    rw [heq]
    rcases List.mem_cons.mp hindex with rfl | hindex
    · rw [placeFrom_self]
      exact (hfirst.told hplace).imp_right (List.mem_append_left _)
    · have hnext : ∀ i ∈ indices t, nextPlace place k + 1 ≤ i := fun i hi =>
        Nat.lt_of_le_of_lt (nextPlace_le hplace) (hk i hi)
      rw [placeFrom_of_ne p (Nat.ne_of_lt (hk index hindex))]
      exact (ih (List.pairwise_cons.mp h).2 hnext hindex).imp_right (List.mem_append_right _)

/-! ## What stands at a place

The pages that were put before are a list in front, so that places count from its start. -/

variable {front gap : List Page} {p q : Page} {notices : List Notice}

theorem LaysFirst.length_before (h : LaysFirst front.length index p gap q notices) :
    (front ++ gap).length = nextPlace front.length index := by
  rw [List.length_append, h.lands]

theorem LaysFirst.length_through (h : LaysFirst front.length index p gap q notices) :
    (front ++ gap ++ [q]).length = nextPlace front.length index + 1 := by
  rw [List.length_append, h.length_before, List.length_singleton]

theorem getElem?_placeFrom (h : Ascending t) (hindex : index ∈ indices t) (front : List Page) :
    ∃ q, (front ++ (pagesFrom front.length t).1)[placeFrom front.length index t]? = some q ∧
      q.widgets = (page t index).widgets := by
  induction t generalizing front with
  | nil => exact absurd hindex List.not_mem_nil
  | cons e t ih =>
    obtain ⟨k, p⟩ := e
    have hk : ∀ i ∈ indices t, k < i := (List.pairwise_cons.mp h).1
    obtain ⟨gap, q, notices, hfirst, heq⟩ := pagesFrom_cons front.length k p t
    rw [heq, page_cons]
    rcases List.mem_cons.mp hindex with rfl | hindex
    · rw [placeFrom_self, if_pos rfl, ← hfirst.length_before, ← List.append_assoc]
      exact ⟨q, by simp, hfirst.kept⟩
    · have hne : k ≠ index := Nat.ne_of_lt (hk index hindex)
      have hlater := ih (List.pairwise_cons.mp h).2 hindex (front ++ gap ++ [q])
      rw [hfirst.length_through] at hlater
      rw [placeFrom_of_ne p hne, if_neg hne.symm]
      simpa only [List.append_assoc, List.singleton_append] using hlater

/-- At all other places are empty pages. -/
theorem widgets_of_forall_placeFrom_ne (front : List Page) {j : Nat} (hj : front.length ≤ j)
    (hq : (front ++ (pagesFrom front.length t).1)[j]? = some q) (h : Ascending t)
    (hfree : ∀ i ∈ indices t, placeFrom front.length i t ≠ j) : q.widgets = [] := by
  induction t generalizing front with
  | nil =>
    rw [pagesFrom, List.append_nil, List.getElem?_eq_none hj] at hq
    cases hq
  | cons e t ih =>
    obtain ⟨k, p⟩ := e
    have hk : ∀ i ∈ indices t, k < i := (List.pairwise_cons.mp h).1
    obtain ⟨gap, p', notices, hfirst, heq⟩ := pagesFrom_cons front.length k p t
    have hhead : nextPlace front.length k ≠ j := by
      have hne := hfree k List.mem_cons_self
      rwa [placeFrom_self] at hne
    rw [heq] at hq
    rcases Nat.lt_or_gt_of_ne hhead with hlater | hearlier
    · have hrest : ∀ i ∈ indices t, placeFrom (front ++ gap ++ [p']).length i t ≠ j := by
        intro i hi
        have hne := hfree i (List.mem_cons_of_mem k hi)
        rwa [placeFrom_of_ne p (Nat.ne_of_lt (hk i hi)), ← hfirst.length_through] at hne
      have hpast : (front ++ gap ++ [p']).length ≤ j := by
        rw [hfirst.length_through]
        exact hlater
      refine ih _ hpast ?_ (List.pairwise_cons.mp h).2 hrest
      rw [hfirst.length_through]
      simpa only [List.append_assoc, List.singleton_append] using hq
    · rw [← hfirst.length_before] at hearlier
      rw [← List.append_assoc, List.getElem?_append_left hearlier, List.getElem?_append_right hj] at hq
      exact hfirst.empty q (List.mem_of_getElem? hq)

end PageTable

end Dashboard
