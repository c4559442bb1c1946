import Dashboard.Proofs.Rebuild.Recorded
/-!
# How recorded pages are placed

The pages of a table are put one behind the other, each at a place that is not past its index. The place
is the index as long as the runs of missing indices before it are short. After the first wide gap all
pages are moved, since each is at most one place further than the page before it. What is put between them
are empty pages, at most sixteen for each page of the table.
-/

namespace Dashboard

open Number

namespace PageTable

/-- The page of an index when it is put at a place. -/
def settle (index place : Nat) (p : Page) : Page := if place = index then p else renumber index place p

/-- The notice on a page that is not put at the place of its index. -/
def moves (index place : Nat) : List Notice := if place = index then [] else [.moved index place]

/-- The pages of the table can be put from a place on: none of their indices is before it. -/
structure Fits (place : Nat) (t : PageTable) : Prop where
  ascending : t.Ascending
  le : ∀ i ∈ t.indices, place ≤ i

variable {t : PageTable} {place index : Nat} {p : Page}

namespace Fits

theorem head (h : Fits place ((index, p) :: t)) : place ≤ index := h.le index List.mem_cons_self

theorem lt (h : Fits place ((index, p) :: t)) : ∀ i ∈ t.indices, index < i :=
  (List.pairwise_cons.mp h.ascending).1

theorem not_mem (h : Fits place ((index, p) :: t)) : index ∉ t.indices := fun hm =>
  Nat.lt_irrefl index (h.lt index hm)

/-- The next pages are put behind the first. -/
theorem tail (h : Fits place ((index, p) :: t)) : Fits (nextPlace place index + 1) t where
  ascending := (List.pairwise_cons.mp h.ascending).2
  le i hi := Nat.lt_of_le_of_lt (nextPlace_le h.head) (h.lt i hi)

theorem placeFrom_tail (h : Fits place ((index, p) :: t)) {i : Nat} (hi : i ∈ t.indices) :
    placeFrom place i ((index, p) :: t) = placeFrom (nextPlace place index + 1) i t :=
  placeFrom_of_ne p (Nat.ne_of_lt (h.lt i hi))

end Fits

/-! ## Putting one page -/

theorem nextPlace_near (h : place ≤ index) (hnear : index ≤ place + widestGap) : nextPlace place index = index := by
  rw [nextPlace, if_neg (by omega)]
  exact Nat.add_sub_cancel' h

theorem nextPlace_far (hfar : place + widestGap < index) : nextPlace place index = place :=
  if_pos (by omega)

theorem nextPlace_le_add (place index : Nat) : nextPlace place index ≤ place + widestGap := by
  unfold nextPlace
  split <;> omega

theorem length_emptyPages (first count : Nat) : (emptyPages first count).length = count := by
  rw [emptyPages, List.length_map, List.length_range]

theorem length_gap (place index : Nat) :
    place + (emptyPages place (nextPlace place index - place)).length = nextPlace place index := by
  rw [length_emptyPages]
  exact Nat.add_sub_cancel' (le_nextPlace place index)

/-- A page of a gap has the index of its place. -/
theorem page_of_gap {first count j : Nat} {q : Page} (hj : first ≤ j)
    (hq : (emptyPages first count)[j - first]? = some q) : q = Page.make j := by
  obtain ⟨i, hi, rfl⟩ := Option.map_eq_some_iff.mp (List.getElem?_map.symm.trans hq)
  obtain ⟨-, rfl⟩ := List.getElem?_eq_some_iff.mp hi
  rw [List.getElem_range, Nat.add_sub_cancel' hj]

/-- A page is put behind empty pages, and there is a notice if it is not at the place of its index. -/
theorem pagesFrom_settle (h : place ≤ index) (p : Page) (t : PageTable) :
    pagesFrom place ((index, p) :: t) =
      (emptyPages place (nextPlace place index - place) ++ settle index (nextPlace place index) p ::
          (pagesFrom (nextPlace place index + 1) t).1,
        moves index (nextPlace place index) ++ (pagesFrom (nextPlace place index + 1) t).2) := by
  rcases Nat.lt_or_ge (place + widestGap) index with hfar | hnear
  · have hne : place ≠ index := by omega
    rw [nextPlace_far hfar, pagesFrom, if_pos (by omega), settle, if_neg hne, moves, if_neg hne, Nat.sub_self]
    rfl
  · rw [nextPlace_near h hnear, pagesFrom, if_neg (by omega), Nat.add_sub_cancel' h, settle, if_pos rfl, moves,
      if_pos rfl]
    rfl

/-- The loop that puts the pages of a table behind those before. It subtracts the number of pages so far
from each index, and has no result if the index is less. -/
def putPages? (pages : List Page) (notices : List Notice) : PageTable → Option (List Page × List Notice)
  | [] => some (pages, notices)
  | (index, p) :: t =>
    if index < pages.length then none
    else if index - pages.length > widestGap then
      putPages? (pages ++ [renumber index pages.length p]) (notices ++ [.moved index pages.length]) t
    else putPages? (pages ++ emptyPages pages.length (index - pages.length) ++ [p]) notices t

theorem putPages?_cons {pages : List Page} (h : pages.length ≤ index) (notices : List Notice) (p : Page)
    (t : PageTable) :
    let place := nextPlace pages.length index
    putPages? pages notices ((index, p) :: t) =
      putPages? (pages ++ emptyPages pages.length (place - pages.length) ++ [settle index place p])
        (notices ++ moves index place) t := by
  intro place
  rw [putPages?, if_neg (Nat.not_lt.mpr h)]
  rcases Nat.lt_or_ge (pages.length + widestGap) index with hfar | hnear
  · have hplace : place = pages.length := nextPlace_far hfar
    have hne : place ≠ index := by omega
    rw [if_pos (by omega), settle, if_neg hne, moves, if_neg hne, hplace, Nat.sub_self]
    change _ = putPages? (pages ++ [] ++ _) _ t
    rw [List.append_nil]
  · have hplace : place = index := nextPlace_near h hnear
    rw [if_neg (by omega), settle, if_pos hplace, moves, if_pos hplace, hplace, List.append_nil]

/-- Nothing is subtracted that is too large: the pages so far never get ahead of the next index. -/
theorem putPages?_eq (pages : List Page) (h : Fits pages.length t) (notices : List Notice) :
    putPages? pages notices t = some (pages ++ (pagesFrom pages.length t).1,
      notices ++ (pagesFrom pages.length t).2) := by
  induction t generalizing pages notices with
  | nil => simp [putPages?, pagesFrom]
  | cons e t ih =>
    obtain ⟨index, p⟩ := e
    let gap := emptyPages pages.length (nextPlace pages.length index - pages.length)
    let put := pages ++ gap ++ [settle index (nextPlace pages.length index) p]
    have hput : put.length = nextPlace pages.length index + 1 := by
      rw [List.length_append, List.length_append, length_gap]
      rfl
    have hrest := ih put (hput ▸ h.tail) (notices ++ moves index (nextPlace pages.length index))
    rw [hput] at hrest
    rw [putPages?_cons h.head, pagesFrom_settle h.head]
    refine hrest.trans ?_
    simp [put, gap]

/-! ## Where the pages are -/

theorem length_pagesFrom_le (h : Fits place t) : (pagesFrom place t).1.length ≤ (widestGap + 1) * t.length := by
  induction t generalizing place with
  | nil => exact Nat.le_refl 0
  | cons e t ih =>
    obtain ⟨index, p⟩ := e
    have hrest := ih h.tail
    have hgap := nextPlace_le_add place index
    rw [pagesFrom_settle h.head, List.length_append, length_emptyPages, List.length_cons, List.length_cons,
      Nat.mul_succ]
    omega

theorem isMoved_pagesFrom (place : Nat) (t : PageTable) : ∀ n ∈ (pagesFrom place t).2, n.isMoved := by
  induction t generalizing place with
  | nil => exact fun _ hn => absurd hn List.not_mem_nil
  | cons e t ih =>
    rw [pagesFrom]
    split
    · exact List.forall_mem_cons.mpr ⟨rfl, ih _⟩
    · exact ih _

/-- No page of a table is put before its first. -/
theorem Fits.nextPlace_le_placeFrom (h : Fits place ((index, p) :: t)) :
    ∀ i ∈ indices ((index, p) :: t), nextPlace place index ≤ placeFrom place i ((index, p) :: t) := by
  refine List.forall_mem_cons.mpr ⟨Nat.le_of_eq (placeFrom_self p).symm, fun i hi => ?_⟩
  rw [h.placeFrom_tail hi]
  exact Nat.le_of_succ_le (le_placeFrom (nextPlace place index + 1) i t)

/-- Every page of the result is a page of the table at its place, or an empty one elsewhere. -/
theorem page_of_getElem? (front : List Page) (h : Fits front.length t) {j : Nat} (hj : front.length ≤ j) {q : Page}
    (hq : (front ++ (pagesFrom front.length t).1)[j]? = some q) :
    (∃ i ∈ t.indices, placeFrom front.length i t = j ∧ q = settle i j (page t i)) ∨
      (∀ i ∈ t.indices, placeFrom front.length i t ≠ j) ∧ q = Page.make j := by
  induction t generalizing front with
  | nil =>
    rw [pagesFrom, List.append_nil, List.getElem?_eq_none hj] at hq
    cases hq
  | cons e t ih =>
    obtain ⟨k, p⟩ := e
    let gap := emptyPages front.length (nextPlace front.length k - front.length)
    have hbefore : (front ++ gap).length = nextPlace front.length k := by
      rw [List.length_append, length_gap]
    rw [pagesFrom_settle h.head, ← List.append_assoc] at hq
    -- The page asked for is in the gap, the first page behind it, or one of the others.
    rcases Nat.lt_trichotomy j (nextPlace front.length k) with hlt | rfl | hgt
    · refine .inr ⟨fun i hi => Nat.ne_of_gt (Nat.lt_of_lt_of_le hlt (h.nextPlace_le_placeFrom i hi)), ?_⟩
      rw [List.getElem?_append_left (Nat.lt_of_lt_of_eq hlt hbefore.symm), List.getElem?_append_right hj] at hq
      exact page_of_gap hj hq
    · refine .inl ⟨k, List.mem_cons_self, placeFrom_self p, ?_⟩
      rw [page_cons, if_pos rfl]
      rw [List.getElem?_append_right (Nat.le_of_eq hbefore), hbefore, Nat.sub_self] at hq
      exact (Option.some.inj hq).symm
    · let through := front ++ gap ++ [settle k (nextPlace front.length k) p]
      have hthrough : through.length = nextPlace front.length k + 1 := by
        rw [List.length_append, hbefore]
        rfl
      have hq' : (through ++ (pagesFrom through.length t).1)[j]? = some q := by
        rw [hthrough]
        simpa [through] using hq
      have hrest := ih through (hthrough ▸ h.tail) (hthrough ▸ hgt) hq'
      rw [hthrough] at hrest
      refine hrest.imp ?_ ?_
      · rintro ⟨i, hi, hplace, hpage⟩
        refine ⟨i, List.mem_cons_of_mem k hi, (h.placeFrom_tail hi).trans hplace, ?_⟩
        rw [page_cons, if_neg (Nat.ne_of_gt (h.lt i hi))]
        exact hpage
      · rintro ⟨hfree, hempty⟩
        refine ⟨fun i hi => ?_, hempty⟩
        rcases List.mem_cons.mp hi with rfl | hi
        · rw [placeFrom_self]
          exact Nat.ne_of_lt hgt
        · rw [h.placeFrom_tail hi]
          exact hfree i hi

/-- The page of an index at its place. -/
theorem getElem?_settle (h : Fits 0 t) {i : Nat} (hi : i ∈ t.indices) :
    (pagesFrom 0 t).1[placeFrom 0 i t]? = some (settle i (placeFrom 0 i t) (page t i)) := by
  obtain ⟨q, hq, -⟩ := getElem?_placeFrom h.ascending hi []
  rcases page_of_getElem? [] h (Nat.zero_le _) hq with ⟨j, hj, hplace, hpage⟩ | ⟨hfree, -⟩
  · have hij : j = i := by
      rcases Nat.lt_trichotomy j i with hlt | heq | hgt
      · exact absurd hplace (Nat.ne_of_lt (placeFrom_lt h.ascending hj hi hlt 0))
      · exact heq
      · exact absurd hplace (Nat.ne_of_gt (placeFrom_lt h.ascending hi hj hgt 0))
    exact hq.trans (congrArg some (hij ▸ hpage))
  · exact absurd rfl (hfree i hi)

/-- There is one notice on each page that is not at the place of its index. -/
theorem notices_pagesFrom (h : Fits place t) :
    (pagesFrom place t).2 = t.indices.flatMap fun i => moves i (placeFrom place i t) := by
  induction t generalizing place with
  | nil => rfl
  | cons e t ih =>
    obtain ⟨k, p⟩ := e
    have hrest : ∀ i ∈ indices t, moves i (placeFrom (nextPlace place k + 1) i t) =
        moves i (placeFrom place i ((k, p) :: t)) := fun i hi => by rw [h.placeFrom_tail hi]
    rw [pagesFrom_settle h.head, ih h.tail, List.flatMap_congr hrest]
    change _ = moves k (placeFrom place k ((k, p) :: t)) ++
      (indices t).flatMap fun i => moves i (placeFrom place i ((k, p) :: t))
    rw [placeFrom_self]

/-! ## Which pages stay at their index -/

/-- The table has none of the indices from one up to another. -/
def Misses (t : PageTable) (first index : Nat) : Prop := ∀ i, first ≤ i → i < index → i ∉ t.indices

/-- No index of the table is before its first. -/
theorem Fits.misses_head (h : Fits place ((index, p) :: t)) (first : Nat) : Misses ((index, p) :: t) first index := by
  intro i _ hlt hi
  rcases List.mem_cons.mp hi with rfl | hi
  · exact Nat.lt_irrefl _ hlt
  · exact Nat.lt_asymm hlt (h.lt i hi)

/-- A run of missing indices up to a later page starts behind the first page. -/
theorem Fits.misses_cons_iff (h : Fits place ((index, p) :: t)) {j : Nat} (hj : j ∈ t.indices) (first : Nat) :
    Misses ((index, p) :: t) first j ↔ index < first ∧ Misses t first j := by
  constructor
  · intro hmisses
    have hpast : index < first := Nat.lt_of_not_le fun hle => hmisses index hle (h.lt j hj) List.mem_cons_self
    exact ⟨hpast, fun i hle hlt hi => hmisses i hle hlt (List.mem_cons_of_mem index hi)⟩
  · rintro ⟨hpast, hmisses⟩ i hle hlt hi
    rcases List.mem_cons.mp hi with rfl | hi
    · exact Nat.not_le.mpr hpast hle
    · exact hmisses i hle hlt hi

/-- The runs of missing indices from a place on, up to a page, are short. -/
def HasShortRuns (t : PageTable) (place index : Nat) : Prop :=
  ∀ j ∈ t.indices, j ≤ index → ∀ first, place ≤ first → t.Misses first j → j ≤ first + widestGap

/-- Behind a first page that is near, no run goes past this page. -/
theorem Fits.hasShortRuns_cons_iff (h : Fits place ((index, p) :: t)) (hnear : index ≤ place + widestGap) (i : Nat) :
    HasShortRuns ((index, p) :: t) place i ↔ HasShortRuns t (index + 1) i := by
  have hfirst : ∀ first, place ≤ first → index ≤ first + widestGap := fun first hle => by omega
  refine List.forall_mem_cons.trans ((and_iff_right fun _ first hle _ => hfirst first hle).trans ?_)
  refine forall₃_congr fun j hj _ => forall_congr' fun first => ?_
  rw [h.misses_cons_iff hj]
  have hhead := h.head
  exact ⟨fun hshort hle hmisses => hshort (by omega) ⟨hle, hmisses⟩, fun hshort _ hmisses => hshort hmisses.1 hmisses.2⟩

/-- After a page was moved the pages so far are too few for all later indices. -/
theorem placeFrom_lt_of_far (h : t.Ascending) (hfar : ∀ i ∈ t.indices, place + widestGap < i) :
    ∀ i ∈ t.indices, placeFrom place i t < i := by
  induction t generalizing place with
  | nil => exact fun _ hi => absurd hi List.not_mem_nil
  | cons e t ih =>
    obtain ⟨k, p⟩ := e
    have hk : place + widestGap < k := hfar k List.mem_cons_self
    have hlt : ∀ i ∈ indices t, k < i := (List.pairwise_cons.mp h).1
    have hbeyond : ∀ i ∈ indices t, place + 1 + widestGap < i := fun i hi => by
      have := hlt i hi
      omega
    have hrest := ih (List.pairwise_cons.mp h).2 hbeyond
    refine List.forall_mem_cons.mpr ⟨?_, fun i hi => ?_⟩
    · rw [placeFrom_self, nextPlace_far hk]
      omega
    · rw [placeFrom_of_ne p (Nat.ne_of_lt (hlt i hi)), nextPlace_far hk]
      exact hrest i hi

/-- A page stays at its index if all runs of missing indices are short up to there, and only then. -/
theorem placeFrom_eq_iff (h : Fits place t) {i : Nat} (hi : i ∈ t.indices) : placeFrom place i t = i ↔
    t.HasShortRuns place i := by
  induction t generalizing place with
  | nil => exact absurd hi List.not_mem_nil
  | cons e t ih =>
    obtain ⟨k, p⟩ := e
    have hki : k ≤ i := by
      rcases List.mem_cons.mp hi with rfl | hi
      · exact Nat.le_refl _
      · exact Nat.le_of_lt (h.lt i hi)
    rcases Nat.lt_or_ge (place + widestGap) k with hfar | hnear
    · -- The gap before the first page is wide, so it is moved and all others with it.
      have hall : ∀ j ∈ indices ((k, p) :: t), place + widestGap < j :=
        List.forall_mem_cons.mpr ⟨hfar, fun j hj => Nat.lt_trans hfar (h.lt j hj)⟩
      refine iff_of_false (Nat.ne_of_lt (placeFrom_lt_of_far h.ascending hall i hi)) fun hshort => ?_
      exact Nat.not_le.mpr hfar (hshort k List.mem_cons_self hki place (Nat.le_refl place) (h.misses_head place))
    · have hplace : nextPlace place k = k := nextPlace_near h.head hnear
      rw [h.hasShortRuns_cons_iff hnear]
      rcases List.mem_cons.mp hi with rfl | hi
      · rw [placeFrom_self]
        exact iff_of_true hplace fun j hj hji => absurd (h.lt j hj) (Nat.not_lt.mpr hji)
      · rw [h.placeFrom_tail hi]
        have hfits := h.tail
        rw [hplace] at hfits ⊢
        exact ih hfits hi

/-! ## The layout -/

/-- How the pages of a table stand among the pages of a layout, with the notices on pages that moved.

The loop over the table gives these pages, as it subtracts nothing too large. All pages have the ids of
their places. Those of the table are in order; each keeps its widgets and its interval, and its name unless
that is the default name of its index. All others are empty. A page stays at its index if no more than
sixteen indices in a row are missing up to there, and only then; of each other page a notice tells the
place. -/
structure IsPlaced (t : PageTable) (pages : List Page) (moved : List Notice) (place : Nat → Nat) : Prop where
  put : putPages? [] [] t = some (pages, moved)
  ids : ∀ (i : Nat) (q : Page), pages[i]? = some q → q.id = "page_" ++ natText i
  ordered : ∀ i ∈ t.indices, ∀ j ∈ t.indices, i < j → place i < place j
  kept : ∀ i ∈ t.indices, ∃ q, pages[place i]? = some q ∧ q.widgets = (t.page i).widgets ∧
    q.refreshSeconds = (t.page i).refreshSeconds ∧
    q.name = if (t.page i).name = Page.defaultName i then Page.defaultName (place i) else (t.page i).name
  others : ∀ (i : Nat) (q : Page), pages[i]? = some q → (∀ j ∈ t.indices, place j ≠ i) → q = Page.make i
  few : pages.length ≤ 17 * t.length
  stays : ∀ i ∈ t.indices, place i = i ↔
    ∀ j ∈ t.indices, j ≤ i → ∀ first, t.Misses first j → j ≤ first + 16
  told : moved = t.indices.flatMap fun i => if place i = i then [] else [.moved i (place i)]

theorem settle_eq (index place : Nat) (p : Page) : (settle index place p).widgets = p.widgets ∧
    (settle index place p).refreshSeconds = p.refreshSeconds ∧ (settle index place p).name =
      if p.name = Page.defaultName index then Page.defaultName place else p.name := by
  rw [settle]
  split
  · next hplace =>
    rw [hplace]
    refine ⟨rfl, rfl, ?_⟩
    split
    · assumption
    · rfl
  · exact ⟨rfl, rfl, rfl⟩

theorem id_settle {index : Nat} {p : Page} (hp : p.id = (Page.make index).id) (place : Nat) :
    (settle index place p).id = (Page.make place).id := by
  rw [settle]
  split
  · next hplace => rw [hp, hplace]
  · rfl

theorem isPlaced_pagesFrom (h : t.Ascending) (hids : t.IsNumbered) :
    t.IsPlaced (pagesFrom 0 t).1 (pagesFrom 0 t).2 fun i => placeFrom 0 i t := by
  have hfits : Fits 0 t := ⟨h, fun i _ => Nat.zero_le i⟩
  constructor
  case put => exact putPages?_eq [] hfits []
  case ids =>
    intro i q hq
    rcases page_of_getElem? [] hfits (Nat.zero_le i) hq with ⟨j, -, -, rfl⟩ | ⟨-, rfl⟩
    · exact id_settle (hids.page j) i
    · rfl
  case ordered => exact fun i hi j hj hij => placeFrom_lt h hi hj hij 0
  case kept => exact fun i hi => ⟨_, getElem?_settle hfits hi, settle_eq i _ _⟩
  case others =>
    intro i q hq hfree
    rcases page_of_getElem? [] hfits (Nat.zero_le i) hq with ⟨j, hj, hplace, -⟩ | ⟨-, hempty⟩
    · exact absurd hplace (hfree j hj)
    · exact hempty
  case few => exact length_pagesFrom_le hfits
  case stays => exact fun i hi => by simpa [HasShortRuns, widestGap] using placeFrom_eq_iff hfits hi
  case told => exact notices_pagesFrom hfits

end PageTable

/-- Placing the pages of a rebuild, whatever the text is. The recorded indices are distinct machine words in
increasing order. Without any the layout is a single empty page; otherwise its pages are the recorded ones,
placed with empty ones between them. The notices on moved pages are those of the placing only. -/
theorem Layout.ofConfiguration_isPlaced (g : Registry) (text : String) :
    let recorded := (Rebuild.run g text).pages
    let back := (Layout.ofConfiguration g text).1
    let moved := (Layout.ofConfiguration g text).2.filter Notice.isMoved
    recorded.Ascending ∧ (∀ i ∈ recorded.indices, i < twoTo 64) ∧
      (recorded = [] → back = Layout.single ∧ moved = []) ∧
      (recorded ≠ [] → ∃ place, recorded.IsPlaced back.pages moved place) := by
  have hrecorded := Rebuild.isRecorded_run g text
  have hascending := (Rebuild.accountsFor_run g text).ascending
  have hread : (Rebuild.run g text).notices.filter Notice.isMoved = [] :=
    List.filter_eq_nil_iff.mpr fun n hn => by simp [hrecorded.notices n hn]
  intro recorded back moved
  refine ⟨hascending, fun i hi => ?_, fun hnone => ?_, fun hsome => ?_⟩
  · obtain ⟨e, he, rfl⟩ := List.mem_map.mp hi
    exact (hrecorded.pages e he).1
  · have hlayout : ofConfiguration g text = (Layout.single, (Rebuild.run g text).notices) := by
      rw [ofConfiguration, Rebuild.layout, if_pos (List.isEmpty_iff.mpr hnone)]
    simp only [back, moved, hlayout, hread, and_self]
  · have hplaced := PageTable.isPlaced_pagesFrom hascending hrecorded.pages
    have hlayout := Rebuild.layout_of_pages hsome
    have hmoved : moved = (PageTable.pagesFrom 0 recorded).2 := by
      have htold : (PageTable.pagesFrom 0 recorded).2.filter Notice.isMoved = (PageTable.pagesFrom 0 recorded).2 :=
        List.filter_eq_self.mpr fun n hn => PageTable.isMoved_pagesFrom 0 recorded n hn
      simp only [moved, ofConfiguration, hlayout, List.filter_append, hread, List.nil_append]
      exact htold
    have hback : back.pages = (PageTable.pagesFrom 0 recorded).1 := congrArg (Layout.pages ·.1) hlayout
    rw [hback, hmoved]
    exact ⟨_, hplaced⟩

end Dashboard
