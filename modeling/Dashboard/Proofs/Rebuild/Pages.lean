import Dashboard.Rebuild.Layout
/-!
# Tables of pages

Changing a page changes what the table answers for its index only, and leaves the indices in
ascending order. A table of all indices below a number gives the pages of a layout one by one,
without gaps and notices.
-/

namespace Dashboard.PageTable

def indices (t : PageTable) : List Nat := t.map Prod.fst

/-- The order that every table built by `change` has. -/
def Ascending (t : PageTable) : Prop := (indices t).Pairwise (· < ·)

variable {t : PageTable} {index : Nat} {f : Page → Page}

theorem page_cons (i : Nat) (p : Page) (t : PageTable) (j : Nat) :
    page ((i, p) :: t) j = if j = i then p else page t j := by
  unfold page
  rw [List.lookup_cons]
  by_cases h : j = i
  · simp [h]
  · have hne : (j == i) = false := by simpa using h
    simp [hne, h]

theorem page_of_not_mem (h : index ∉ indices t) : page t index = Page.make index := by
  induction t with
  | nil => rfl
  | cons e t ih =>
    obtain ⟨i, p⟩ := e
    have hi : index ≠ i := fun he => h (he ▸ List.mem_cons_self)
    rw [page_cons, if_neg hi]
    exact ih fun hm => h (List.mem_cons_of_mem i hm)

theorem mem_indices_change {i : Nat} :
    i ∈ indices (change index f t) ↔ i = index ∨ i ∈ indices t := by
  induction t with
  | nil => simp [indices, change]
  | cons e t ih =>
    obtain ⟨k, p⟩ := e
    simp only [change]
    split
    · simp [indices]
    · split
      · rename_i hk
        subst hk
        simp [indices]
      · simp only [indices, List.map_cons, List.mem_cons] at ih ⊢
        rw [ih]
        exact or_left_comm

theorem ascending_change (h : Ascending t) : Ascending (change index f t) := by
  induction t with
  | nil => simp [Ascending, indices, change]
  | cons e t ih =>
    obtain ⟨k, p⟩ := e
    have hk : ∀ i ∈ indices t, k < i := (List.pairwise_cons.mp h).1
    have ht : Ascending t := (List.pairwise_cons.mp h).2
    simp only [change]
    split
    · rename_i hlt
      refine List.pairwise_cons.mpr ⟨fun i hi => ?_, h⟩
      rcases List.mem_cons.mp hi with rfl | hi
      · exact hlt
      · exact Nat.lt_trans hlt (hk i hi)
    · split
      · rename_i he
        subst he
        exact h
      · refine List.pairwise_cons.mpr ⟨fun i hi => ?_, ih ht⟩
        rcases mem_indices_change.mp hi with rfl | hi
        · omega
        · exact hk i hi

theorem page_change (h : Ascending t) (j : Nat) :
    page (change index f t) j = if j = index then f (page t index) else page t j := by
  induction t with
  | nil => exact page_cons index (f (Page.make index)) [] j
  | cons e t ih =>
    obtain ⟨k, p⟩ := e
    have hk : ∀ i ∈ indices t, k < i := (List.pairwise_cons.mp h).1
    have ht : Ascending t := (List.pairwise_cons.mp h).2
    simp only [change]
    split
    · rename_i hlt
      have habsent : index ∉ indices ((k, p) :: t) := by
        intro hm
        rcases List.mem_cons.mp hm with rfl | hm
        · exact Nat.lt_irrefl _ hlt
        · exact Nat.lt_asymm hlt (hk index hm)
      rw [page_cons, page_of_not_mem habsent]
    · split
      · rename_i he
        subst he
        rw [page_cons, page_cons, page_cons, if_pos rfl]
        by_cases hj : j = index <;> simp [hj]
      · rename_i hne
        rw [page_cons, ih ht, page_cons, page_cons, if_neg hne]
        by_cases hj : j = k
        · rw [if_pos hj, if_pos hj, if_neg fun hji => hne (hji.symm.trans hj)]
        · rw [if_neg hj, if_neg hj]

/-- Entering a page that is there changes nothing, and an empty one answers as before. -/
theorem page_enter (h : Ascending t) (j : Nat) : page (enter index t) j = page t j := by
  rw [enter, page_change h]
  split
  · rename_i hj
    rw [hj, id]
  · rfl

theorem eq_map_page (h : Ascending t) : t = (indices t).map fun i => (i, page t i) := by
  induction t with
  | nil => rfl
  | cons e t ih =>
    obtain ⟨k, p⟩ := e
    have hk : ∀ i ∈ indices t, k < i := (List.pairwise_cons.mp h).1
    have hpage : ∀ i ∈ indices t, page t i = page ((k, p) :: t) i := by
      intro i hi
      rw [page_cons, if_neg (Nat.ne_of_gt (hk i hi))]
    have hhead : p = page ((k, p) :: t) k := by rw [page_cons, if_pos rfl]
    change (k, p) :: t = (k, page ((k, p) :: t) k) ::
      (indices t).map fun i => (i, page ((k, p) :: t) i)
    rw [← hhead]
    refine congrArg _ ((ih (List.pairwise_cons.mp h).2).trans ?_)
    exact List.map_congr_left fun i hi => by rw [hpage i hi]

theorem indices_eq_range (h : Ascending t) {n : Nat} (hn : ∀ i, i ∈ indices t ↔ i < n) :
    indices t = List.range n := by
  have hnodup : (indices t).Nodup := h.imp Nat.ne_of_lt
  have hperm : (indices t).Perm (List.range n) :=
    (List.perm_ext_iff_of_nodup hnodup List.nodup_range).mpr fun i => by rw [hn, List.mem_range]
  exact hperm.eq_of_pairwise (fun a b _ _ hab hba => absurd hab (Nat.lt_asymm hba)) h
    List.pairwise_lt_range

theorem pagesFrom_range' (place n : Nat) (page : Nat → Page) :
    pagesFrom place ((List.range' place n).map fun i => (i, page i)) =
      ((List.range' place n).map page, []) := by
  induction n generalizing place with
  | zero => rfl
  | succ n ih =>
    rw [List.range'_succ, List.map_cons, pagesFrom, if_neg (by simp)]
    simp only [Nat.sub_self, Nat.add_zero, ih, emptyPages, List.range_zero, List.map_nil,
      List.nil_append, List.map_cons]

theorem pagesFrom_complete (h : Ascending t) {n : Nat} (hn : ∀ i, i ∈ indices t ↔ i < n) :
    pagesFrom 0 t = ((List.range n).map (page t), []) := by
  have ht := eq_map_page h
  rw [indices_eq_range h hn] at ht
  rw [ht, List.range_eq_range', pagesFrom_range', ← List.range_eq_range', ← ht]

end Dashboard.PageTable
