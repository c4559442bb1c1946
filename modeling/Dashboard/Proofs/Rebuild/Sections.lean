import Dashboard.Proofs.Rebuild.Blocks
/-!
# Sections without code

The sections before the lambdas list fonts, graphs and entities. They open no region as long as
every text in them stays on its line.
-/

namespace Dashboard

open Text Number

/-- The texts of the options stay on their lines. -/
structure Options.IsOneLine (o : Options) : Prop where
  displayId : OneLine o.displayId
  displayPlatform : OneLine o.displayPlatform
  timeId : OneLine o.timeId
  pageGlobal : OneLine o.pageGlobal

namespace ProceduralDocument

/-- No text of a document leaves its line, and all actions are refreshes. -/
structure IsContained (d : ProceduralDocument) : Prop where
  options : d.options.IsOneLine
  fonts : ∀ f ∈ d.fonts, OneLine f.family
  graphs : ∀ g ∈ d.graphs, OneLine g.id ∧ OneLine g.sensor ∧ OneLine g.duration
  sensors : d.options.emitSensors = true → ∀ x ∈ d.sensors, OneLine x.id ∧ OneLine x.entityId ∧
    ∀ a ∈ x.actions, ∃ id, OneLine id ∧ a = "component.update: " ++ id
  colors : ∀ c ∈ d.colors, OneLine c.1

/-- A line that neither breaks nor opens a region. -/
def IsQuiet (l : String) : Prop :=
  OneLine l ∧ Region.ofOpener? (Region.scanned l).toList = none

instance (l : String) : Decidable (IsQuiet l) := inferInstanceAs (Decidable (_ ∧ _))

/-- Whether a line opens a region shows at its start. -/
theorem isQuiet_append {start s : String} (hc : Region.IsClean start) (hn : OneLine start)
    (hstart : ∀ cs, Region.ofOpener? (start.toList ++ cs) = none)
    (hs : OneLine s) : IsQuiet (start ++ s) :=
  ⟨hn.append hs, by rw [Region.scanned_append hc, hstart]⟩

variable {d : ProceduralDocument}

theorem isQuiet_globalLines (hd : d.IsContained) : ∀ l ∈ d.globalLines, IsQuiet l := by
  have hpage : IsQuiet ("  - id: " ++ d.options.pageGlobal) :=
    isQuiet_append (by decide) (by decide) (fun _ => rfl) hd.options.pageGlobal
  have hinterval : IsQuiet ("    initial_value: '" ++ natText d.options.refreshSeconds.toNat ++ "'") := by
    rw [String.append_assoc]
    exact isQuiet_append (by decide) (by decide) (fun _ => rfl)
      ((oneLine_natText _).append (by decide))
  have hblank : IsQuiet "" := by decide
  rw [globalLines]
  split
  · simp only [List.append_nil, List.forall_mem_append, List.forall_mem_cons, List.not_mem_nil, false_implies,
      implies_true, and_true]
    refine ⟨⟨by decide, hpage, by decide, by decide, by decide⟩, hblank⟩
  · simp only [List.forall_mem_append, List.forall_mem_cons, List.not_mem_nil, false_implies, implies_true, and_true]
    refine ⟨⟨⟨by decide, hpage, by decide, by decide, by decide⟩, by decide, by decide, hinterval⟩, hblank⟩

theorem newline_ne_slugChar (c : Char) : FontRequest.slugChar c ≠ '\n' := by
  unfold FontRequest.slugChar
  split
  · exact newline_ne_toLower ‹_›
  · decide

theorem oneLine_fontId (f : FontRequest) : OneLine f.id := by
  have hslug : OneLine (String.ofList (f.family.toList.map FontRequest.slugChar)) :=
    .ofMap newline_ne_slugChar _
  have hitalic : OneLine (if f.italic then "_italic" else "") := by split <;> decide
  rw [FontRequest.id]
  exact (((((OneLine.append (by decide) hslug).append (by decide)).append (oneLine_natText _)).append
    (by decide)).append (oneLine_natText _)).append hitalic

theorem isQuiet_fontLines {fonts : List FontRequest} (h : ∀ f ∈ fonts, OneLine f.family) :
    ∀ l ∈ FontRequest.sectionLines fonts, IsQuiet l := by
  have hfont : ∀ f ∈ fonts, ∀ l ∈ f.declarationLines, IsQuiet l := by
    intro f hf
    have hitalic : OneLine (if f.italic then "italic" else "") := by split <;> decide
    have hsource : OneLine f.source := by
      rw [FontRequest.source]
      exact (((OneLine.append (by decide) (h f hf)).append (by decide)).append
        (oneLine_natText _)).append hitalic
    simp only [FontRequest.declarationLines, List.forall_mem_cons, List.not_mem_nil, false_implies,
      implies_true, and_true]
    refine ⟨?_, ?_, ?_⟩
    · rw [String.append_assoc]
      exact isQuiet_append (by decide) (by decide) (fun _ => rfl)
        (hsource.append (by decide))
    · exact isQuiet_append (by decide) (by decide) (fun _ => rfl) (oneLine_fontId f)
    · exact isQuiet_append (by decide) (by decide) (fun _ => rfl) (oneLine_natText _)
  rw [FontRequest.sectionLines]
  split
  · exact fun l hl => absurd hl List.not_mem_nil
  · simp only [List.cons_append, List.forall_mem_cons, List.forall_mem_append, List.not_mem_nil, false_implies,
      implies_true, and_true]
    refine ⟨by decide, ?_, by decide⟩
    intro l hl
    obtain ⟨f, hf, hl⟩ := List.mem_flatMap.mp hl
    exact hfont f hf l hl

theorem isQuiet_graphLines (hd : d.IsContained) : ∀ l ∈ d.graphLines, IsQuiet l := by
  have hgraph : ∀ g ∈ d.graphs, ∀ l ∈ graphDeclaration g, IsQuiet l := by
    intro g hg
    obtain ⟨hid, hsensor, hduration⟩ := hd.graphs g hg
    simp only [graphDeclaration, List.forall_mem_cons, List.not_mem_nil, false_implies,
      implies_true, and_true]
    refine ⟨?_, ?_, ?_, ?_, ?_, ?_⟩
    · exact isQuiet_append (by decide) (by decide) (fun _ => rfl) hid
    · exact isQuiet_append (by decide) (by decide) (fun _ => rfl) hsensor
    · exact isQuiet_append (by decide) (by decide) (fun _ => rfl) hduration
    · exact isQuiet_append (by decide) (by decide) (fun _ => rfl) (oneLine_intText _)
    · exact isQuiet_append (by decide) (by decide) (fun _ => rfl) (oneLine_intText _)
    · exact isQuiet_append (by decide) (by decide) (fun _ => rfl) (oneLine_natText _)
  rw [graphLines]
  split
  · exact fun l hl => absurd hl List.not_mem_nil
  · simp only [List.cons_append, List.forall_mem_cons, List.forall_mem_append, List.not_mem_nil, false_implies,
      implies_true, and_true]
    refine ⟨by decide, ?_, by decide⟩
    intro l hl
    obtain ⟨g, hg, hl⟩ := List.mem_flatMap.mp hl
    exact hgraph g hg l hl

theorem isQuiet_sensorHead (previous : Option SensorKind) (kind : SensorKind) :
    ∀ l ∈ SensorDecl.headLines previous kind, IsQuiet l := by
  have hkind : IsQuiet (kind.sectionName ++ ":") := by cases kind <;> decide
  unfold SensorDecl.headLines
  split
  · simpa using hkind
  · split
    · exact fun l hl => absurd hl List.not_mem_nil
    · simp only [List.forall_mem_cons, List.not_mem_nil, false_implies, implies_true, and_true]
      exact ⟨by decide, hkind⟩

theorem isQuiet_sensorActions {actions : List String} (h : ∀ a ∈ actions, IsQuiet ("        - " ++ a)) :
    ∀ l ∈ SensorDecl.actionLines actions, IsQuiet l := by
  rw [SensorDecl.actionLines]
  split
  · exact fun l hl => absurd hl List.not_mem_nil
  · simp only [List.forall_mem_cons]
    refine ⟨by decide, by decide, fun l hl => ?_⟩
    obtain ⟨a, ha, rfl⟩ := List.mem_map.mp hl
    exact h a ha

theorem isQuiet_sensorBody {x : SensorDecl} (hid : OneLine x.id) (hentity : OneLine x.entityId)
    (hactions : ∀ a ∈ x.actions, IsQuiet ("        - " ++ a)) : ∀ l ∈ SensorDecl.bodyLines x, IsQuiet l := by
  simp only [SensorDecl.bodyLines, List.forall_mem_append, List.forall_mem_cons, List.not_mem_nil,
    false_implies, implies_true, and_true]
  refine ⟨⟨by decide, ?_, ?_, by decide⟩, isQuiet_sensorActions hactions⟩
  · exact isQuiet_append (by decide) (by decide) (fun _ => rfl) hid
  · exact isQuiet_append (by decide) (by decide) (fun _ => rfl) hentity

theorem isQuiet_sensorLines {ds : List SensorDecl}
    (h : ∀ x ∈ ds, OneLine x.id ∧ OneLine x.entityId ∧ ∀ a ∈ x.actions, IsQuiet ("        - " ++ a))
    (previous : Option SensorKind) : ∀ l ∈ SensorDecl.linesFrom previous ds, IsQuiet l := by
  induction ds generalizing previous with
  | nil =>
    rw [SensorDecl.linesFrom]
    split
    · simp only [List.forall_mem_cons, List.not_mem_nil, false_implies, implies_true, and_true]
      decide
    · exact fun l hl => absurd hl List.not_mem_nil
  | cons x ds ih =>
    obtain ⟨hid, hentity, hactions⟩ := h x List.mem_cons_self
    rw [SensorDecl.linesFrom]
    simp only [List.forall_mem_append]
    exact ⟨⟨isQuiet_sensorHead previous x.kind, isQuiet_sensorBody hid hentity hactions⟩,
      ih (fun y hy => h y (List.mem_cons_of_mem x hy)) _⟩

/-- The sections before the lambdas. -/
def headLines (d : ProceduralDocument) : List String :=
  d.globalLines ++ FontRequest.sectionLines d.fonts ++ d.graphLines ++
    (if d.options.emitSensors then SensorDecl.sectionLines d.sensors else [])

theorem isQuiet_headLines (hd : d.IsContained) : ∀ l ∈ d.headLines, IsQuiet l := by
  have hsensors : ∀ l ∈ (if d.options.emitSensors then SensorDecl.sectionLines d.sensors else []),
      IsQuiet l := by
    split
    · rename_i hemit
      refine isQuiet_sensorLines (fun x hx => ?_) none
      obtain ⟨hid, hentity, hactions⟩ := hd.sensors hemit x hx
      refine ⟨hid, hentity, fun a ha => ?_⟩
      obtain ⟨id, hline, rfl⟩ := hactions a ha
      rw [← String.append_assoc]
      exact isQuiet_append (by decide) (by decide) (fun _ => rfl) hline
    · exact fun l hl => absurd hl List.not_mem_nil
  simp only [headLines, List.forall_mem_append]
  exact ⟨⟨⟨isQuiet_globalLines hd, isQuiet_fontLines hd.fonts⟩, isQuiet_graphLines hd⟩, hsensors⟩

end ProceduralDocument

end Dashboard
