import Dashboard.Kind.Basic
import Dashboard.Proofs.Document.Guards
import Dashboard.Proofs.Marker.Written
import Dashboard.Proofs.Rebuild.Blocks
/-!
# Blocks of drawing code

While a block is written, its first line is the marker of its widget and every other line is drawing
code, for calls, loops, scopes and guards alike. Hence a finished block is read as its marker and
nothing else.
-/

namespace Dashboard

open Text Number

/-- The statements of drawing code, form by form. Each of them stays on its line. -/
inductive Statement.IsDrawing : String → Prop where
  | openBrace : IsDrawing "\x7b"
  | closeBrace : IsDrawing "\x7d"
  | indent {s : String} (h : IsDrawing s) : IsDrawing ("  " ++ s)
  | loop (count : Nat) : IsDrawing ("for (int i = 0; i < " ++ natText count ++ "; i++) \x7b")
  | call {name : String} (hname : name.toList ≠ [] ∧ name.toList.all isWord = true)
    (hclean : Region.IsClean name) {arguments : List String} (hline : OneLine name)
    (h : ∀ a ∈ arguments, OneLine a) : IsDrawing (Kind.call name arguments)
  | now {timeId : String} (h : OneLine timeId) :
    IsDrawing ("auto now = " ++ Kind.componentRef timeId ++ ".now();")
  | guard {entity g : String} (h : Condition.IsTest entity g) : IsDrawing ("if (" ++ g ++ ") \x7b")

namespace Condition

/-- A test begins with the name of a component, which may be negated. After the name there is a point. -/
theorem IsTest.guard_eq {entity g : String} (h : IsTest entity g) :
    (∃ rest, "if (" ++ g ++ ") \x7b" = "if (id(" ++ (Entity.componentId entity ++ (")." ++ rest))) ∨
      ∃ rest, "if (" ++ g ++ ") \x7b" = "if (!" ++ rest := by
  obtain ⟨rest, -, rfl | rfl⟩ := h
  · refine .inl ⟨"state" ++ rest ++ ") \x7b", String.toList_inj.mp ?_⟩
    simp [stateOf]
  · refine .inr ⟨stateOf entity ++ rest ++ ") \x7b", String.toList_inj.mp ?_⟩
    simp

theorem IsTest.oneLine {entity g : String} (h : IsTest entity g) : OneLine g := by
  obtain ⟨rest, hrest, rfl | rfl⟩ := h
  · exact (oneLine_stateOf entity).append hrest
  · exact (by decide : OneLine "!").append ((oneLine_stateOf entity).append hrest)

end Condition

theorem Entity.isClean_componentId (entity : String) : Region.IsClean (componentId entity) :=
  ⟨not_mem_componentId (by decide) (by decide) entity, not_mem_componentId (by decide) (by decide) entity⟩

theorem Entity.isBlank_of_mem_componentId {entity : String} :
    ∀ c ∈ (componentId entity).toList, isBlank c = false := by
  intro c hc
  have hkey : Marker.isKeyChar c = true := by
    simpa [Marker.isKeyChar] using mem_componentId hc
  exact Marker.isBlank_of_isKeyChar hkey

theorem Kind.call_eq (name : String) (arguments : List String) :
    call name arguments = "it." ++ (name ++ ("(" ++ (joined ", " arguments ++ ");"))) := by
  simp only [call, String.append_assoc]

namespace Statement.IsDrawing

variable {s : String}

theorem oneLine (h : IsDrawing s) : OneLine s := by
  induction h with
  | openBrace => decide
  | closeBrace => decide
  | indent _ ih => exact .append (by decide) ih
  | loop count =>
    exact ((by decide : OneLine "for (int i = 0; i < ").append (oneLine_natText count)).append (by decide)
  | call _ _ hline h =>
    exact ((((by decide : OneLine "it.").append hline).append (by decide)).append
      (.joined (by decide) h)).append (by decide)
  | now h =>
    exact ((by decide : OneLine "auto now = ").append
      (((by decide : OneLine "id(").append h).append (by decide))).append (by decide)
  | guard h => exact ((by decide : OneLine "if (").append h.oneLine).append (by decide)

/-- However its tabs are shown, a statement is read as drawing code. -/
theorem plain (h : IsDrawing s) {view : String → String} (hview : Region.IsView view) :
    IsPlain true (view s).toList := by
  induction h with
  | openBrace => rw [hview.eq_self (by decide)]; exact isPlain_open
  | closeBrace => rw [hview.eq_self (by decide)]; exact isPlain_close
  | indent _ ih =>
    rw [hview.toList_append (by decide)]
    exact ih.indent 2
  | loop count =>
    rw [String.append_assoc, hview.toList_append (by decide)]
    exact isPlain_loop ("int i = 0; i < ".toList ++ _)
  | call hname hclean _ _ =>
    rw [Kind.call_eq, hview.toList_append (by decide), hview.toList_append hclean,
      hview.toList_append (by decide)]
    exact isPlain_call hname.1 (List.all_eq_true.mp hname.2) _
  | now _ =>
    rw [String.append_assoc, hview.toList_append (by decide)]
    exact isPlain_local ("= ".toList ++ _)
  | @guard entity g h =>
    rcases h.guard_eq with ⟨rest, hwritten⟩ | ⟨rest, hwritten⟩
    · rw [hwritten, hview.toList_append (by decide), hview.toList_append (Entity.isClean_componentId entity),
        hview.toList_append (by decide)]
      exact isPlain_guard Entity.isBlank_of_mem_componentId
        (Entity.not_mem_componentId (by decide) (by decide) entity) _
    · rw [hwritten, hview.toList_append (by decide)]
      exact isPlain_negated _

theorem isCode (h : IsDrawing s) {n : Nat} (hn : Block.lambdaColumn ≤ n) :
    CodeBlock.IsCode (spaces n ++ s) :=
  CodeBlock.isCode_of_isPlain hn h.oneLine (h.plain Region.isView_scanned)

end Statement.IsDrawing

namespace Block

/-- A statement in the column of the lambda or to the right of it. -/
def IsPlaced (l : String) : Prop :=
  ∃ n s, lambdaColumn ≤ n ∧ Statement.IsDrawing s ∧ l = spaces n ++ s

/-- Lines that begin with a marker, after which there is only drawing code. -/
def Follows (marker : String) (ls : List String) : Prop :=
  ∃ code, ls = (spaces pageColumn ++ marker) :: code ∧ ∀ l ∈ code, IsPlaced l

theorem Follows.concat {marker l : String} {ls : List String} (h : Follows marker ls)
    (hl : IsPlaced l) : Follows marker (ls ++ [l]) := by
  obtain ⟨code, rfl, hcode⟩ := h
  refine ⟨code ++ [l], by rw [List.cons_append], ?_⟩
  simpa using fun l' hl' => hl'.elim (hcode l') fun he => he ▸ hl

/-- A block under way, whose next statement stands in a column of the page or to the right of it. -/
structure Builds (marker : String) (column : Nat) (b : Block) : Prop where
  lines : Follows marker b.lines
  fits : lambdaColumn ≤ column
  indent : column ≤ b.indent

variable {marker : String} {column : Nat} {b : Block}

theorem Builds.line (h : b.Builds marker column) {s : String} (hs : Statement.IsDrawing s) :
    (b.line s).Builds marker column where
  lines := h.lines.concat ⟨b.indent, s, Nat.le_trans h.fits h.indent, hs, rfl⟩
  fits := h.fits
  indent := h.indent

theorem Builds.foldl_line {ss : List String} (h : b.Builds marker column)
    (hs : ∀ s ∈ ss, Statement.IsDrawing s) : (ss.foldl Block.line b).Builds marker column := by
  induction ss generalizing b with
  | nil => exact h
  | cons s ss ih =>
    exact ih (h.line (hs s List.mem_cons_self)) fun s' hs' => hs s' (List.mem_cons_of_mem s hs')

theorem Builds.loop (h : b.Builds marker column) (count : Nat) {s : String}
    (hs : Statement.IsDrawing s) : (b.loop count s).Builds marker column :=
  ((h.line (.loop count)).line hs.indent).line .closeBrace

theorem Builds.openScope (h : b.Builds marker column) :
    b.openScope.Builds marker (column + 2) where
  lines := (h.line .openBrace).lines
  fits := Nat.le_add_right_of_le h.fits
  indent := Nat.add_le_add_right h.indent 2

theorem Builds.closeScope (h : b.Builds marker (column + 2)) (hc : lambdaColumn ≤ column) :
    b.closeScope.Builds marker column := by
  have hindent : column ≤ b.indent - 2 := Nat.le_sub_of_add_le h.indent
  have hstart : ({ b with indent := b.indent - 2 } : Block).Builds marker column :=
    ⟨h.lines, hc, hindent⟩
  exact hstart.line .closeBrace

theorem Builds.finish (h : b.Builds marker column) : Follows marker b.finish := by
  unfold Block.finish
  split
  · exact h.lines.concat ⟨pageColumn, _, by decide, .closeBrace, rfl⟩
  · exact h.lines

theorem builds_start (w : Widget) (props : Bag) (aliases : Aliases) :
    (start w props aliases).Builds (Marker.encode w props aliases) pageColumn := by
  unfold start
  cases hg : w.condition.guard? with
  | none => exact ⟨⟨[], rfl, by simp⟩, by decide, Nat.le_refl _⟩
  | some g =>
    obtain ⟨entity, htest⟩ := Condition.isTest_of_guard? hg
    have hcode : IsPlaced (spaces pageColumn ++ "if (" ++ g ++ ") \x7b") :=
      ⟨pageColumn, _, by decide, .guard htest, by simp only [String.append_assoc]⟩
    exact ⟨⟨[_], rfl, by simpa using hcode⟩, by decide, Nat.le_add_right _ _⟩

/-- The lines of a marker are readable as soon as its kind and its keys are key words. -/
theorem Follows.readable {w : Widget} {props : Bag} {aliases : Aliases} {ls : List String}
    (h : Follows (Marker.encode w props aliases) ls) (hkind : Marker.IsKey w.kind.toList)
    (hprops : ∀ e ∈ Marker.propEntries props aliases, Marker.IsKey e.1.toList) :
    ∃ b : CodeBlock, b.Readable ∧ ls = b.lines ∧ b.marker.kind = w.kind ∧
      Marker.ofLine? (Region.scanned (Marker.encode w props aliases)) = some b.marker := by
  obtain ⟨code, rfl, hcode⟩ := h
  obtain ⟨m, hm, hmkind⟩ := Marker.ofLine?_view_encode Region.isView_scanned props aliases hkind
  have hmarker : CodeBlock.IsMarker m (spaces pageColumn ++ Marker.encode w props aliases) := by
    refine ⟨(OneLine.spaces _).append (Marker.oneLine_encode hkind hprops),
      Region.reaches_spaces (by decide) _, ?_⟩
    rw [Statement.ofLine_scanned, Statement.ofLine, hm]
  have hread : ∀ l ∈ code, CodeBlock.IsCode l := by
    intro l hl
    obtain ⟨n, s, hn, hs, rfl⟩ := hcode l hl
    exact hs.isCode hn
  exact ⟨⟨m, _, code⟩, ⟨hmarker, hread⟩, rfl, hmkind, hm⟩

end Block

end Dashboard
