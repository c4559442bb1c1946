import Dashboard.Proofs.Compile.Kinds
import Dashboard.Proofs.Kind.Calls
import Dashboard.Proofs.Kind.Drawn
import Dashboard.Proofs.Rebuild.Texts
/-!
# Drawing code behind a marker

What a widget draws begins with the only marker among its lines. Every other line belongs to the body of a
widget by its form, and none of them tests, names or times a page, whatever the texts of the widget are.
-/

namespace Dashboard

open Text Number Emission

namespace Statement

variable {s : String} {view : String → String}

theorem IsDrawing.pageDigits?_eq_none (h : IsDrawing s) (hview : Region.IsView view) :
    pageDigits? (view s).toList = none := by
  induction h with
  | openBrace => rw [hview.eq_self (by decide)]; rfl
  | closeBrace => rw [hview.eq_self (by decide)]; rfl
  | @indent s _ ih =>
    rw [hview.toList_append (by decide)]
    exact (pageDigits?_indent 2 (view s).toList).trans ih
  | loop count =>
    rw [String.append_assoc, hview.toList_append (by decide)]
    rfl
  | call _ _ _ _ =>
    rw [Kind.call_eq, hview.toList_append (by decide)]
    rfl
  | now _ =>
    rw [String.append_assoc, hview.toList_append (by decide)]
    rfl
  | @guard entity g h =>
    rcases h.guard_eq with ⟨rest, hwritten⟩ | ⟨rest, hwritten⟩
    · rw [hwritten, hview.toList_append (by decide), hview.toList_append (Entity.isClean_componentId entity),
        hview.toList_append (by decide)]
      exact pageDigits?_state Entity.isBlank_of_mem_componentId
        (Entity.not_mem_componentId (by decide) (by decide) entity) _
    · rw [hwritten, hview.toList_append (by decide)]
      rfl

/-- A line that keeps what is being skipped skipped: it may stand in the body of a widget and is nothing else. -/
structure IsSuppressed (line : String) : Prop where
  unmarked : Marker.ofLine? line = none
  untested : pageDigits? line.toList = none
  untimed : intervalCase? line.toList = none
  unnamed : pageName? line.toList = none
  inBody : isBody line.toList = true

theorem isSuppressed_of_ofLine {line : String} (h : ofLine line = .other true)
    (hpage : pageDigits? line.toList = none) : IsSuppressed line := by
  unfold ofLine at h
  cases hmarker : Marker.ofLine? line with
  | some m => simp [hmarker] at h
  | none =>
    cases hinterval : intervalCase? line.toList with
    | some found =>
      simp only [hmarker, pageTest?_eq, hpage, Option.bind_none, hinterval, ofInterval] at h
      split at h <;> exact Statement.noConfusion h
    | none =>
      cases hname : pageName? line.toList with
      | some name => simp [hmarker, pageTest?_eq, hpage, hinterval, hname] at h
      | none =>
        simp only [hmarker, pageTest?_eq, hpage, Option.bind_none, hinterval, hname] at h
        exact ⟨hmarker, hpage, hinterval, hname, Statement.other.inj h⟩

end Statement

namespace Block

variable {view : String → String}

theorem IsPlaced.oneLine {l : String} (h : IsPlaced l) : OneLine l := by
  obtain ⟨n, s, -, hs, rfl⟩ := h
  exact (OneLine.spaces n).append hs.oneLine

theorem IsPlaced.isSuppressed {l : String} (h : IsPlaced l) (hview : Region.IsView view) :
    Statement.IsSuppressed (view l) := by
  obtain ⟨n, s, -, hs, rfl⟩ := h
  have hlist : (view (spaces n ++ s)).toList = List.replicate n ' ' ++ (view s).toList := by
    rw [hview.toList_append (Region.isClean_spaces n), toList_spaces]
  have hread : Statement.ofLine (view (spaces n ++ s)) = .other true := by
    rw [← String.ofList_toList (s := view (spaces n ++ s)), hlist]
    exact ((hs.plain hview).indent n).statement
  refine Statement.isSuppressed_of_ofLine hread ?_
  rw [hlist, Statement.pageDigits?_indent, hs.pageDigits?_eq_none hview]

/-- Lines that are one marker of a kind and the suppressed body behind it. -/
def IsSuppressed (kind : String) (ls : List String) : Prop :=
  ∃ first body, ls = first :: body ∧ (∃ m, Marker.ofLine? first = some m ∧ m.kind = kind) ∧
    ∀ l ∈ body, Statement.IsSuppressed l

variable {w : Widget} {props : Bag} {aliases : Aliases} {ls : List String}

theorem Follows.oneLine (h : Follows (Marker.encode w props aliases) ls) (hkind : Marker.IsKey w.kind.toList)
    (hprops : ∀ e ∈ Marker.propEntries props aliases, Marker.IsKey e.1.toList) : ∀ l ∈ ls, OneLine l := by
  obtain ⟨code, rfl, hcode⟩ := h
  exact List.forall_mem_cons.mpr
    ⟨(OneLine.spaces pageColumn).append (Marker.oneLine_encode hkind hprops), fun l hl => (hcode l hl).oneLine⟩

theorem Follows.isSuppressed (h : Follows (Marker.encode w props aliases) ls)
    (hkind : Marker.IsKey w.kind.toList) (hview : Region.IsView view) : IsSuppressed w.kind (ls.map view) := by
  obtain ⟨code, rfl, hcode⟩ := h
  obtain ⟨m, hm, hmkind⟩ := Marker.ofLine?_view_encode hview props aliases hkind
  have hbody : ∀ l ∈ code.map view, Statement.IsSuppressed l :=
    List.forall_mem_map.mpr fun l hl => (hcode l hl).isSuppressed hview
  refine ⟨_, _, List.map_cons, ⟨m, ?_, hmkind⟩, hbody⟩
  rw [← String.ofList_toList (s := view (spaces pageColumn ++ Marker.encode w props aliases)),
    hview.toList_append (Region.isClean_spaces pageColumn), toList_spaces, Statement.ofMarker?_indent,
    String.ofList_toList, hm]

end Block

namespace Kind

theorem serves_of_supports {k : WidgetKind} (hk : k ∈ builtin)
    (h : k.descriptor.supports .exportProcedural = true) : k.serves .procedural = true := by
  simp only [builtin, List.mem_cons, List.not_mem_nil, or_false] at hk
  rcases hk with rfl | rfl | rfl | rfl | rfl | rfl | rfl | rfl | rfl
  all_goals first | rfl | exact absurd h (by decide)

/-- The drawing code of a widget of a built-in kind is one marker of the kind and a suppressed body, whatever texts
the widget has, and so it is where its tabs are expanded. -/
theorem procedural_isSuppressed {k : WidgetKind} (hk : k ∈ builtin)
    (hsupports : k.descriptor.supports .exportProcedural = true) {w : Widget} (hkind : w.kind = k.id) {s : Setting}
    (htime : OneLine s.options.timeId) {r after : Resources} {ls : List String}
    (h : runWith (k.procedural s w) r = (.ok ls, after)) :
    Block.IsSuppressed w.kind (lines (unlines ls)) ∧
      Block.IsSuppressed w.kind ((lines (unlines ls)).map Region.expandTabs) := by
  -- What was registered before makes no difference to the lines.
  have hfresh : (runWith (k.procedural s w) {}).1 = .ok ls := by
    rw [(WidgetKind.isOblivious_of_builtin hk).procedural s w {} r, h]
  obtain ⟨-, hyields⟩ := writesBlocks_of_builtin hk (serves_of_supports hk hsupports) (fun _ => True) s w htime
    fun _ _ _ _ _ _ => trivial
  obtain ⟨bag, -, hfollows, hprops⟩ := (hyields {} (Resources.isOf_empty _) ls _ (Prod.ext hfresh rfl)).1
  have hword : Marker.IsKey w.kind.toList := hkind ▸ isKey_of_builtin hk
  have hlines : lines (unlines ls) = ls.map fun l => String.ofList (withoutReturn l.toList) :=
    lines_unlines (hfollows.oneLine hword hprops)
  have hexpanded : (lines (unlines ls)).map Region.expandTabs = ls.map Region.scanned := by
    rw [hlines, List.map_map]
    rfl
  rw [hexpanded, hlines]
  exact ⟨hfollows.isSuppressed hword Region.isView_withoutReturn, hfollows.isSuppressed hword Region.isView_scanned⟩

/-- A text with lines that look like a page, its name and a widget, shown while a door has a state that looks like a
refresh interval. -/
def decoy : Widget :=
  { Widget.make "decoy" "text" with
    props := [("text", .string "if (page == 3)\n// page:name \"Away\"\r\n// widget:text id:t2")]
    condition :=
      { entityId := some "text_sensor.door", operator := some "==", state := some "x\ncase 4: interval = 9;" } }

theorem procedural_isSuppressed_decoy :
    ∃ ls after, runWith (TextBlock.kind.procedural { target := .procedural, dark := false } decoy) {} =
        (.ok ls, after) ∧
      Block.IsSuppressed "text" (lines (unlines ls)) ∧
        Block.IsSuppressed "text" ((lines (unlines ls)).map Region.expandTabs) := by
  have hread := TextBlock.isRestorable.read_of_overlay (w := decoy) (TextBlock.overlay_text _)
  obtain ⟨ls, after, hls, -⟩ := TextBlock.gives_procedural hread { target := .procedural, dark := false } {}
  refine ⟨ls, after, hls, ?_⟩
  exact procedural_isSuppressed (k := TextBlock.kind) (s := { target := .procedural, dark := false })
    (by simp [builtin]) (by decide) rfl (by decide) hls

end Kind

end Dashboard
