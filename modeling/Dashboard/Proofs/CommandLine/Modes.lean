import Dashboard.CommandLine.Run
import Dashboard.Proofs.CommandLine.Files
/-!
# One way to compile and another

A compile is for one target or for all of them, prints or writes, and may be strict. All of these come to
the same texts: what is printed for all targets is what is printed for each under a line with its name, each
file that is written for all of them is the file that is written for its target, and a strict compile prints
and writes what any other does and fails in the end if there is a diagnostic.
-/

namespace Dashboard.CommandLine

open Number Text

namespace Plan

variable {failure : Option Failure} {o : Outcome} {e : Effect} {es : List Effect}

/-- The failure in the end has no part in what is printed and written. -/
theorem carryOut_eq (failure : Option Failure) (o : Outcome) (es : List Effect) :
    carryOut failure o es =
      if (carryOut none o es).failure.isSome then carryOut none o es else { carryOut none o es with failure } := by
  induction es generalizing o with
  | nil => rfl
  | cons e es ih =>
    rw [carryOut, carryOut]
    by_cases h : (e.apply o).failure.isSome
    · rw [if_pos h, if_pos h, if_pos h]
    · rw [if_neg h, if_neg h]
      exact ih (e.apply o)

theorem carryOut_printed (failure : Option Failure) (o : Outcome) (es : List Effect) :
    (carryOut failure o es).printed = (carryOut none o es).printed := by
  rw [carryOut_eq]
  split <;> rfl

theorem carryOut_folder (failure : Option Failure) (o : Outcome) (es : List Effect) :
    (carryOut failure o es).folder = (carryOut none o es).folder := by
  rw [carryOut_eq]
  split <;> rfl

theorem carryOut_failure (h : (carryOut none o es).failure = none) (failure : Option Failure) :
    (carryOut failure o es).failure = failure := by
  rw [carryOut_eq, h]
  rfl

theorem carryOut_cons (h : (carryOut none o (e :: es)).failure = none) :
    (e.apply o).failure = none ∧ carryOut none o (e :: es) = carryOut none (e.apply o) es := by
  rw [carryOut] at h ⊢
  split at h
  · next hfailed => rw [h] at hfailed; cases hfailed
  · next hnone => exact ⟨Option.not_isSome_iff_eq_none.mp hnone, if_neg hnone⟩

theorem carryOut_prints (texts : List String) (ho : o.failure = none) :
    carryOut none o (texts.map .print) = { o with printed := o.printed ++ String.join texts } := by
  induction texts generalizing o with
  | nil => simp [carryOut, ← ho]
  | cons text texts ih =>
    have happly : ((Effect.print text).apply o).failure.isSome = false := by simp [Effect.apply, ho]
    rw [List.map_cons, carryOut, happly, if_neg Bool.false_ne_true, ih (by simpa [Effect.apply] using ho),
      String.join_cons, ← String.append_assoc]
    rfl

theorem apply_printed_of_ne_print (h : ∀ text, e ≠ .print text) : (e.apply o).printed = o.printed := by
  cases e with
  | print text => exact absurd rfl (h text)
  | makeFolder path => rfl
  | write path text =>
    rw [Effect.apply]
    split <;> rfl

theorem carryOut_printed_of_ne_print (h : ∀ e ∈ es, ∀ text, e ≠ .print text) :
    (carryOut failure o es).printed = o.printed := by
  induction es generalizing o with
  | nil => rfl
  | cons e es ih =>
    obtain ⟨he, hes⟩ := List.forall_mem_cons.mp h
    rw [carryOut]
    split
    · exact apply_printed_of_ne_print he
    · exact (ih hes).trans (apply_printed_of_ne_print he)

end Plan

namespace Effect

/-- The writes of files into a folder. -/
def writesInto (folder : String) (files : List (String × String)) : List Effect :=
  files.map fun file => .write (Path.join folder file.1) file.2

theorem ne_print_of_mem_writesInto {folder : String} {files : List (String × String)} :
    ∀ e ∈ writesInto folder files, ∀ text, e ≠ .print text := by
  intro e he text
  obtain ⟨file, -, rfl⟩ := List.mem_map.mp he
  exact nofun

variable {o : Outcome} {path content folder n text : String} {file : String × String} {files : List (String × String)}

theorem write_of_apply (h : ((Effect.write path content).apply o).failure = none) :
    o.folder.write path content = .ok ((Effect.write path content).apply o).folder := by
  cases hwrite : o.folder.write path content with
  | error e => simp [apply, hwrite] at h
  | ok f => simp [apply, hwrite]

theorem carryOut_writesInto (h : (Plan.carryOut none o (writesInto folder (file :: files))).failure = none) :
    ∃ o', o.folder.write (Path.join folder file.1) file.2 = .ok o'.folder ∧
      Plan.carryOut none o (writesInto folder (file :: files)) = Plan.carryOut none o' (writesInto folder files) :=
  have ⟨hwrite, hrest⟩ := Plan.carryOut_cons h
  ⟨_, write_of_apply hwrite, hrest⟩

/-- The writes of other files leave a file as it is. -/
theorem read_writesInto_of_not_mem (hnames : ∀ file ∈ files, Path.IsName file.1) (hn : Path.IsName n)
    (hnew : n ∉ files.map Prod.fst) (h : (Plan.carryOut none o (writesInto folder files)).failure = none)
    (hread : o.folder.read (Path.join folder n) = .ok text) :
    (Plan.carryOut none o (writesInto folder files)).folder.read (Path.join folder n) = .ok text := by
  induction files generalizing o with
  | nil => exact hread
  | cons file files ih =>
    obtain ⟨o', hwrite, hrest⟩ := carryOut_writesInto h
    obtain ⟨hne, hnew⟩ := not_or.mp (mt List.mem_cons.mpr hnew)
    obtain ⟨hname, hnames⟩ := List.forall_mem_cons.mp hnames
    rw [hrest] at h ⊢
    exact ih hnames hnew h (Folder.read_write_join hname hn (Ne.symm hne) hwrite hread)

/-- Files that are written into one folder under different names are all there in the end. -/
theorem read_writesInto (hnames : ∀ file ∈ files, Path.IsName file.1) (hdistinct : (files.map Prod.fst).Nodup)
    (h : (Plan.carryOut none o (writesInto folder files)).failure = none) :
    ∀ file ∈ files, (Plan.carryOut none o (writesInto folder files)).folder.read (Path.join folder file.1) =
      .ok file.2 := by
  induction files generalizing o with
  | nil => exact List.forall_mem_nil _
  | cons file files ih =>
    obtain ⟨o', hwrite, hrest⟩ := carryOut_writesInto h
    obtain ⟨hnew, hdistinct⟩ := List.nodup_cons.mp hdistinct
    obtain ⟨hname, hnames⟩ := List.forall_mem_cons.mp hnames
    rw [hrest] at h ⊢
    exact List.forall_mem_cons.mpr
      ⟨read_writesInto_of_not_mem hnames hname hnew h (Folder.read_write_self hwrite), ih hnames hdistinct h⟩

end Effect

namespace CompileCommand

/-- The same compile for one target, with its output put somewhere. -/
def alone (c : CompileCommand) (t : Target) (output : Option String) : CompileCommand :=
  { c with target := t, all := false, output }

/-- The same compile for all targets, with its output put somewhere. -/
def together (c : CompileCommand) (output : Option String) : CompileCommand := { c with all := true, output }

def withStrict (c : CompileCommand) (strict : Bool) : CompileCommand := { c with strict }

def run (c : CompileCommand) (o : Options) (f : Folder) : Outcome :=
  Invocation.run { command := .compile c, options := o } f

/-- The input of a compile is there and is a layout. -/
def Loads (c : CompileCommand) (f : Folder) (l : Layout) : Prop :=
  ∃ text, f.read c.input = .ok text ∧ Json.ofText Layout.decoder text = .ok l

/-- The text for one target. -/
def text (c : CompileCommand) (o : Options) (l : Layout) (t : Target) : String :=
  c.render (Registry.compile .builtin o l t)

def steps (c : CompileCommand) (o : Options) (l : Layout) : List Effect := c.effects (c.reports o l)

/-- Everything that a compile prints, makes and writes succeeds. -/
def Succeeds (c : CompileCommand) (o : Options) (f : Folder) (l : Layout) : Prop :=
  (Plan.carryOut none { folder := f } (c.steps o l)).failure = none

instance (c : CompileCommand) (o : Options) (f : Folder) (l : Layout) : Decidable (c.Succeeds o f l) :=
  inferInstanceAs (Decidable (_ = none))

variable {c : CompileCommand} {o : Options} {f : Folder} {l : Layout} {rs : List Report} {t : Target}
  {folder output : String}

theorem run_of_loads (h : c.Loads f l) :
    c.run o f = Plan.carryOut (c.strictFailure (c.reports o l)) { folder := f } (c.steps o l) := by
  obtain ⟨text, hread, hload⟩ := h
  have htext : Invocation.inputText { command := .compile c, options := o } f = .ok text := by
    simp only [Invocation.inputText, Command.input?, hread]
  have hplan : c.plan o text = { effects := c.steps o l, failure := c.strictFailure (c.reports o l) } := by
    simp only [plan, hload, steps]
  simp only [run, Invocation.run, htext, Command.plan, hplan]

theorem run_of_not_loads (h : ∀ l, ¬c.Loads f l) :
    (c.run o f).printed = "" ∧ (c.run o f).folder = f ∧ (c.run o f).failure.isSome := by
  rw [run, Invocation.run]
  cases hread : f.read c.input with
  | error e =>
    simp only [Invocation.inputText, Command.input?, hread]
    exact ⟨trivial, trivial, rfl⟩
  | ok text =>
    cases hload : Json.ofText Layout.decoder text with
    | ok l => exact absurd ⟨text, hread, hload⟩ (h l)
    | error e =>
      simp only [Invocation.inputText, Command.input?, hread, Command.plan, plan, hload]
      exact ⟨rfl, rfl, rfl⟩

/-! ## Steps -/

theorem steps_alone (output : Option String) : (c.alone t output).steps o l = [.output output (c.text o l t)] := rfl

theorem steps_together_none : (c.together none).steps o l =
    (Target.all.flatMap fun t => ["--- " ++ t.name ++ "\n", endLine (c.text o l t)]).map .print := rfl

/-- What only prints succeeds. -/
theorem succeeds_of_output_eq_none (h : c.output = none) : c.Succeeds o f l := by
  obtain ⟨input, target, all, output, report, strict⟩ := c
  obtain rfl : output = none := h
  cases all with
  | false => rfl
  | true =>
    have hsteps : steps { input, target, all := true, output := none, report, strict } o l = _ :=
      steps_together_none (c := { input, target, report, strict })
    rw [Succeeds, hsteps, Plan.carryOut_prints _ rfl]

theorem steps_together (folder : String) : (c.together (some folder)).steps o l =
    .makeFolder folder :: Effect.writesInto folder (Target.all.map fun t => (c.fileName t, c.text o l t)) := rfl

/-! ## Names of files -/

theorem fileName_eq (c : CompileCommand) (t : Target) : c.fileName t = fileName { input := "", report := c.report } t :=
  rfl

theorem mem_all (t : Target) : t ∈ Target.all := by
  cases t with
  | procedural => decide
  | retained => decide
  | declarative flavor => cases flavor <;> decide

theorem isName_fileName (c : CompileCommand) (t : Target) : Path.IsName (c.fileName t) := by
  have hnames : ∀ report, ∀ t ∈ Target.all, Path.IsName (fileName { input := "", report } t) := by decide
  exact fileName_eq c t ▸ hnames c.report t (mem_all t)

theorem nodup_fileName (c : CompileCommand) : (Target.all.map c.fileName).Nodup := by
  have hnodup : ∀ report, (Target.all.map (fileName { input := "", report })).Nodup := by decide
  exact hnodup c.report

/-! ## Agreement -/

theorem join_flatMap {α : Type} (texts : α → List String) (as : List α) :
    String.join (as.flatMap texts) = String.join (as.map fun a => String.join (texts a)) := by
  induction as with
  | nil => rfl
  | cons a as ih => rw [List.flatMap_cons, String.join_append, ih, List.map_cons, String.join_cons]

theorem prints_alone (h : c.Loads f l) :
    ((c.alone t none).run o f).printed = endLine (c.text o l t) ∧ ((c.alone t none).run o f).folder = f := by
  rw [run_of_loads (show (c.alone t none).Loads f l from h), Plan.carryOut_printed, Plan.carryOut_folder]
  exact ⟨String.empty_append, rfl⟩

theorem prints_together (h : c.Loads f l) :
    ((c.together none).run o f).printed =
        String.join (Target.all.map fun t => "--- " ++ t.name ++ "\n" ++ endLine (c.text o l t)) ∧
      ((c.together none).run o f).folder = f := by
  rw [run_of_loads (show (c.together none).Loads f l from h), Plan.carryOut_printed, Plan.carryOut_folder,
    steps_together_none, Plan.carryOut_prints _ rfl]
  refine ⟨?_, rfl⟩
  rw [String.empty_append, join_flatMap]
  simp only [String.join_cons, String.join_nil, String.append_empty]

theorem writes_alone (h : c.Loads f l) (hok : (c.alone t (some output)).Succeeds o f l) :
    ((c.alone t (some output)).run o f).printed = "" ∧
      ((c.alone t (some output)).run o f).folder.read output = .ok (c.text o l t) := by
  rw [run_of_loads (show (c.alone t (some output)).Loads f l from h), Plan.carryOut_folder, steps_alone]
  refine ⟨Plan.carryOut_printed_of_ne_print (List.forall_mem_singleton.mpr nofun), ?_⟩
  rw [Succeeds, steps_alone] at hok
  obtain ⟨hwrite, hrest⟩ := Plan.carryOut_cons hok
  rw [hrest]
  exact Folder.read_write_self (Effect.write_of_apply hwrite)

theorem writes_together (h : c.Loads f l) (hok : (c.together (some folder)).Succeeds o f l) :
    ((c.together (some folder)).run o f).printed = "" ∧
      ∀ t, ((c.together (some folder)).run o f).folder.read (Path.join folder (c.fileName t)) = .ok (c.text o l t) := by
  rw [run_of_loads (show (c.together (some folder)).Loads f l from h), Plan.carryOut_folder, steps_together]
  refine ⟨Plan.carryOut_printed_of_ne_print (List.forall_mem_cons.mpr ⟨nofun, Effect.ne_print_of_mem_writesInto⟩),
    fun t => ?_⟩
  rw [Succeeds, steps_together] at hok
  obtain ⟨-, hrest⟩ := Plan.carryOut_cons hok
  rw [hrest] at hok ⊢
  refine Effect.read_writesInto ?_ ?_ hok (c.fileName t, c.text o l t) (List.mem_map_of_mem (mem_all t))
  · exact List.forall_mem_map.mpr fun t _ => c.isName_fileName t
  · rw [List.map_map]
    exact c.nodup_fileName

theorem isSome_strictFailure (c : CompileCommand) (rs : List Report) :
    ((c.withStrict true).strictFailure rs).isSome ↔ ∃ r ∈ rs, r.diagnostics ≠ [] := by
  have hcount : 0 < total (rs.map fun r => r.diagnostics.length) ↔ ∃ r ∈ rs, r.diagnostics ≠ [] := by
    induction rs with
    | nil => simp [total]
    | cons r rs ih =>
      rw [List.map_cons, List.exists_mem_cons_iff, ← ih, ← List.length_pos_iff]
      exact Nat.add_pos_iff_pos_or_pos
  rw [← hcount, strictFailure, withStrict, Bool.true_and]
  split
  · next h => exact iff_of_true rfl (of_decide_eq_true h)
  · next h => exact iff_of_false Bool.false_ne_true (mt decide_eq_true h)

/-- What the ways to compile a layout have in common. -/
structure ModesAgree (c : CompileCommand) (o : Options) (f : Folder) (l : Layout) : Prop where
  /-- All targets are printed in order, each under its name and as it is printed alone. -/
  printed : ((c.together none).run o f).printed =
    String.join (Target.all.map fun t => "--- " ++ t.name ++ "\n" ++ ((c.alone t none).run o f).printed)
  nothing_written : ((c.together none).run o f).folder = f ∧ ∀ t, ((c.alone t none).run o f).folder = f
  /-- One file is written for each target, with the text that is written for it alone. -/
  files : ∃ text : Target → String,
    (∀ folder, (c.together (some folder)).steps o l =
      .makeFolder folder :: Target.all.map fun t => .write (Path.join folder (c.fileName t)) (text t)) ∧
    ∀ t output, (c.alone t (some output)).steps o l = [.write output (text t)]
  names : (Target.all.map c.fileName).Nodup
  /-- In the end the file of a target reads as the one that is written for it alone. -/
  written : ∀ {folder}, (c.together (some folder)).Succeeds o f l →
    ((c.together (some folder)).run o f).printed = "" ∧
      ∀ {t output}, (c.alone t (some output)).Succeeds o f l →
        ((c.alone t (some output)).run o f).printed = "" ∧
          ∃ text, ((c.together (some folder)).run o f).folder.read (Path.join folder (c.fileName t)) = .ok text ∧
            ((c.alone t (some output)).run o f).folder.read output = .ok text
  strict_outputs : ((c.withStrict true).run o f).printed = ((c.withStrict false).run o f).printed ∧
    ((c.withStrict true).run o f).folder = ((c.withStrict false).run o f).folder
  strict_fails : c.Succeeds o f l →
    (((c.withStrict true).run o f).failure.isSome ↔ ∃ r ∈ c.reports o l, r.diagnostics ≠ [])
  not_strict : c.Succeeds o f l → ((c.withStrict false).run o f).failure = none
  prints_succeed : c.output = none → c.Succeeds o f l

theorem modes_agree (c : CompileCommand) (o : Options) (f : Folder) :
    (∀ l, c.Loads f l → c.ModesAgree o f l) ∧
      ((∀ l, ¬c.Loads f l) → (c.run o f).printed = "" ∧ (c.run o f).folder = f ∧ (c.run o f).failure.isSome) := by
  refine ⟨fun l h => ?_, run_of_not_loads⟩
  have hstrict (strict : Bool) : (c.withStrict strict).run o f =
      Plan.carryOut ((c.withStrict strict).strictFailure (c.reports o l)) { folder := f } (c.steps o l) :=
    run_of_loads (show (c.withStrict strict).Loads f l from h)
  refine
    { printed := ?_, nothing_written := ⟨(prints_together h).2, fun t => (prints_alone h).2⟩
      files := ⟨c.text o l, fun folder => (steps_together folder).trans ?_, fun t output => steps_alone (some output)⟩
      names := c.nodup_fileName
      written := fun hall => ⟨(writes_together h hall).1, fun halone => ⟨(writes_alone h halone).1, _,
        (writes_together h hall).2 _, (writes_alone h halone).2⟩⟩
      strict_outputs := ⟨?_, ?_⟩, strict_fails := fun hok => ?_, not_strict := fun hok => ?_
      prints_succeed := succeeds_of_output_eq_none }
  · simp only [(prints_together h).1, (prints_alone h).1]
  · rw [Effect.writesInto, List.map_map]
    rfl
  · rw [hstrict, hstrict, Plan.carryOut_printed, Plan.carryOut_printed ((c.withStrict false).strictFailure _)]
  · rw [hstrict, hstrict, Plan.carryOut_folder, Plan.carryOut_folder ((c.withStrict false).strictFailure _)]
  · rw [hstrict, Plan.carryOut_failure hok]
    exact isSome_strictFailure c _
  · rw [hstrict, Plan.carryOut_failure hok]
    rfl

/-- A layout whose only widget is of an unknown kind. -/
def unknownKindText : String :=
  "\x7b\"pages\":[\x7b\"id\":\"p\",\"name\":\"P\",\"widgets\":[" ++
    "\x7b\"id\":\"w\",\"type\":\"dial\",\"x\":0,\"y\":0,\"width\":1,\"height\":1\x7d]\x7d]\x7d"

def unknownKind : Folder := [("layout.json", .file unknownKindText)]

theorem modes_agree_unknown_kind :
    (∃ l, Loads { input := "layout.json" } unknownKind l ∧
      (together { input := "layout.json" } (some "out")).Succeeds {} unknownKind l ∧
      (alone { input := "layout.json" } .retained (some "lvgl.yaml")).Succeeds {} unknownKind l ∧
      ModesAgree { input := "layout.json" } {} unknownKind l) ∧
    (∀ l, ¬Loads { input := "absent.json" } unknownKind l) ∧
      (run { input := "absent.json" } {} unknownKind).folder = unknownKind := by
  have habsent (l : Layout) : ¬Loads { input := "absent.json" } unknownKind l := by
    rintro ⟨text, hread, -⟩
    have hmissing : unknownKind.read "absent.json" = .error .notFound := by decide +kernel
    rw [hmissing] at hread
    cases hread
  refine ⟨?_, habsent, ((modes_agree { input := "absent.json" } {} unknownKind).2 habsent).2.1⟩
  have hread : unknownKind.read "layout.json" = .ok unknownKindText := by decide +kernel
  have hall : (Json.ofText Layout.decoder unknownKindText).toOption.any (fun l =>
      (together { input := "layout.json" } (some "out")).Succeeds {} unknownKind l ∧
      (alone { input := "layout.json" } .retained (some "lvgl.yaml")).Succeeds {} unknownKind l) = true := by
    decide +kernel
  cases hload : Json.ofText Layout.decoder unknownKindText with
  | error e => rw [hload] at hall; cases hall
  | ok l =>
    rw [hload] at hall
    obtain ⟨hout, halone⟩ := of_decide_eq_true hall
    have hloads : Loads { input := "layout.json" } unknownKind l := ⟨_, hread, hload⟩
    exact ⟨l, hloads, hout, halone, (modes_agree { input := "layout.json" } {} unknownKind).1 l hloads⟩

end CompileCommand

end Dashboard.CommandLine
