import Dashboard.Proofs.Document.Scalars
import Dashboard.Proofs.Kind.Declared
import Dashboard.Proofs.Rebuild.Texts
/-!
# Fixed texts of nodes

A text widget and a label without an entity become a node that holds their text as it is. The entry of that
property stands within the block of the node wherever a document shows the node, and it is read back as the
text exactly if the text is not mistaken for code or for a number.
-/

namespace Dashboard

open Text Json

namespace Json.Record

variable {α β : Type} {access : Access}

/-- What a record builds of what it finds. -/
def Yields (r : Record α) (access : Access) (Q : α → Prop) : Prop := ∀ a, r.build access = .ok a → Q a

namespace Yields

variable {Q : α → Prop} {R : β → Prop}

theorem map {r : Record α} {f : α → β} (hf : ∀ a, Q a → R (f a)) (h : r.Yields access Q) :
    (f <$> r).Yields access R := by
  intro b hb
  change (r.build access).map f = _ at hb
  cases hr : r.build access with
  | error e =>
    rw [hr] at hb
    exact nomatch hb
  | ok a =>
    rw [hr] at hb
    cases hb
    exact hf a (h a hr)

theorem seq {f : Record (α → β)} {r : Record α} (hf : f.Yields access fun g => ∀ a, R (g a)) :
    (f <*> r).Yields access R := by
  intro b hb
  obtain ⟨g, hg, hb⟩ := exists_of_bind hb
  obtain ⟨a, -, hb⟩ := exists_of_bind hb
  cases hb
  exact hf g hg a

theorem string {name text default : String} (h : access.find? name = some (.text (.ok text))) :
    (Record.withDefault name .string default).Yields access (· = text) := by
  intro a ha
  rw [Record.withDefault, build_field h] at ha
  exact (Except.ok.inj ha).symm

end Yields

end Json.Record

namespace Schema

variable {P : Type} {schema : Schema P} {w : Widget} {p : P} {s : String}

theorem string_of_read (Q : P → Prop) {name : String} (hyields : ∀ access : Access, access.find? name = some (.text (.ok s)) →
    schema.record.Yields access Q) (hs : Table.find? (Bag.overlay schema.defaults w.props) name = some (.string s))
    (hp : schema.read w = .ok p) : Q p := by
  refine hyields _ ?_ p (Record.build_of_closed (ofJson_of_read hp))
  exact (Record.findMember_ofFields _ _).trans (congrArg (Option.map Source.ofJson) hs)

end Schema

namespace Kind

variable {w : Widget} {s : String}

theorem TextBlock.text_of_read {p : Props} (hp : schema.read w = .ok p)
    (hs : Table.find? (Bag.overlay schema.defaults w.props) "text" = some (.string s)) : p.text = s := by
  refine Schema.string_of_read (fun p => p.text = s) (fun access h => ?_) hs hp
  refine ((((((((Record.Yields.map ?_ (.string h)).seq).seq).seq).seq).seq).seq).seq).seq
  rintro text rfl - - - - - - - -
  rfl

theorem Label.text_of_read {p : Props} (hp : schema.read w = .ok p)
    (hs : Table.find? (Bag.overlay schema.defaults w.props) "text" = some (.string s)) : p.text = s := by
  refine Schema.string_of_read (fun p => p.text = s) (fun access h => ?_) hs hp
  refine (((((((((((Record.Yields.map ?_ (.string h)).seq).seq).seq).seq).seq).seq).seq).seq).seq).seq).seq
  rintro text rfl - - - - - - - - - - -
  rfl

theorem entityRead?_eq_none (h : w.entity? = none) : entityRead? w = none := by rw [entityRead?, h]; rfl

variable {st : Setting} {r : Resources} {nodes : List RetainedNode}

theorem TextBlock.exists_node (hentity : w.entity? = none)
    (hs : Table.find? (kind.descriptor.mergedProps w) "text" = some (.string s)) (h : kind.retained st r w = .ok nodes) :
    ∃ n, nodes = [n] ∧ n.props.find? "text" = some (.string s) := by
  obtain ⟨p, hp, hnodes⟩ := exists_of_bind h
  have htext := text_of_read (Schema.read_of_readForExport hp) hs
  refine ⟨_, (Except.ok.inj hnodes).symm, ?_⟩
  simp [RetainedNode.putText, RetainedNode.find?_put, shownText, entityRead?_eq_none hentity, htext]

theorem Label.exists_node (hentity : w.entity? = none)
    (hs : Table.find? (kind.descriptor.mergedProps w) "text" = some (.string s)) (h : kind.retained st r w = .ok nodes) :
    ∃ n, nodes = [n] ∧ n.props.find? "text" = some (.string s) := by
  obtain ⟨p, hp, hnodes⟩ := exists_of_bind h
  have htext := text_of_read (Schema.read_of_readForExport hp) hs
  refine ⟨_, (Except.ok.inj hnodes).symm, ?_⟩
  simp [RetainedNode.putText, RetainedNode.putCount, RetainedNode.find?_put, RetainedNode.find?_putTextIf,
    shownText, entityRead?_eq_none hentity, htext]

end Kind

/-! ## Entries of documents -/

theorem Yaml.fieldLines_append (indent : Nat) (fs gs : Bag) :
    fieldLines indent (fs ++ gs) = fieldLines indent fs ++ fieldLines indent gs := by
  induction fs with
  | nil => rfl
  | cons f fs ih => rw [List.cons_append, fieldLines, fieldLines, ih, List.append_assoc]

def RetainedNode.entry? (n : RetainedNode) (key : String) : Option (List String) :=
  (n.props.find? key).map (Yaml.entryLines 12 key)

namespace RetainedDocument

/-- The document has the block of a node, with these lines within it. -/
def HasEntry (d : RetainedDocument) (n : RetainedNode) (entry : List String) : Prop :=
  ∃ front before after back, nodeLines n = before ++ entry ++ after ∧ d.text = unlines (front ++ nodeLines n ++ back)

theorem exists_nodeLines {n : RetainedNode} {key : String} {entry : List String} (h : n.entry? key = some entry) :
    ∃ before after, nodeLines n = before ++ entry ++ after := by
  obtain ⟨value, hvalue, rfl⟩ := Option.map_eq_some_iff.mp h
  obtain ⟨fs, gs, hprops⟩ := List.append_of_mem (Table.mem_of_find? hvalue)
  refine ⟨("        - " ++ n.tag ++ ":") :: Yaml.fieldLines 12 fs, Yaml.fieldLines 12 gs, ?_⟩
  rw [nodeLines, hprops, Yaml.fieldLines_append, Yaml.fieldLines, List.cons_append, List.cons_append,
    List.append_assoc]

theorem exists_text {d : RetainedDocument} {p : RetainedPage} {n : RetainedNode} (hp : p ∈ d.pages)
    (hn : n ∈ p.widgets) : ∃ front back, d.text = unlines (front ++ nodeLines n ++ back) := by
  obtain ⟨ps, qs, hpages⟩ := List.append_of_mem hp
  obtain ⟨ns, ms, hnodes⟩ := List.append_of_mem hn
  have hpage : pageLines p = ["    - id: " ++ p.id, "      widgets:"] ++ ns.flatMap nodeLines ++ nodeLines n ++
      ms.flatMap nodeLines := by
    rw [pageLines, hnodes, List.isEmpty_eq_false_iff.mpr (by simp)]
    simp
  refine ⟨FontRequest.sectionLines d.fonts ++ SensorDecl.sectionLines d.sensors ++ ["lvgl:", "  pages:"] ++
    ps.flatMap pageLines ++ (["    - id: " ++ p.id, "      widgets:"] ++ ns.flatMap nodeLines),
    ms.flatMap nodeLines ++ qs.flatMap pageLines, ?_⟩
  rw [text, hpages, List.flatMap_append, List.flatMap_cons, hpage]
  simp only [List.append_assoc]

theorem hasEntry_of_entry? {d : RetainedDocument} {p : RetainedPage} {n : RetainedNode} {key : String}
    {entry : List String} (hp : p ∈ d.pages) (hn : n ∈ p.widgets) (h : n.entry? key = some entry) :
    d.HasEntry n entry := by
  obtain ⟨before, after, hlines⟩ := exists_nodeLines h
  obtain ⟨front, back, htext⟩ := exists_text hp hn
  exact ⟨front, before, after, back, hlines, htext⟩

end RetainedDocument

namespace Kind

variable {k : WidgetKind} {w : Widget} {s : String} {st : Setting} {r : Resources} {nodes : List RetainedNode}

theorem exists_entry?_text (hk : k = TextBlock.kind ∨ k = Label.kind) (hentity : w.entity? = none)
    (hs : Table.find? (k.descriptor.mergedProps w) "text" = some (.string s)) (h : k.retained st r w = .ok nodes) :
    ∃ n, nodes = [n] ∧ n.entry? "text" = some (Yaml.entryLines 12 "text" (.string s)) := by
  obtain ⟨n, hnodes, htext⟩ : ∃ n, nodes = [n] ∧ n.props.find? "text" = some (.string s) := by
    rcases hk with rfl | rfl
    · exact TextBlock.exists_node hentity hs h
    · exact Label.exists_node hentity hs h
  exact ⟨n, hnodes, by rw [RetainedNode.entry?, htext]; rfl⟩

/-- The fixed text of a widget stands in every document with its node as one entry, which is read as this text
exactly if the text is not mistaken for something else. -/
theorem entry?_text_isTextEntry_iff (hk : k = TextBlock.kind ∨ k = Label.kind) (hentity : w.entity? = none)
    (hs : Table.find? (k.descriptor.mergedProps w) "text" = some (.string s)) (h : k.retained st r w = .ok nodes) :
    ∃ n entry, nodes = [n] ∧ n.entry? "text" = some entry ∧
      (∀ (d : RetainedDocument), ∀ p ∈ d.pages, n ∈ p.widgets → d.HasEntry n entry) ∧
      (Yaml.IsTextEntry 12 "text" s entry ↔ ¬ Yaml.IsMistaken s) := by
  obtain ⟨n, hnodes, hentry⟩ := exists_entry?_text hk hentity hs h
  exact ⟨n, _, hnodes, hentry, fun d p hp hn => d.hasEntry_of_entry? hp hn hentry, Yaml.isTextEntry_entryLines_iff⟩

def notice (text : String) : Widget := { Widget.make "notice" "text" with props := [("text", .string text)] }

theorem find?_text_notice (text : String) :
    Table.find? (TextBlock.kind.descriptor.mergedProps (notice text)) "text" = some (.string text) := by
  change Table.find? (Bag.overlay TextBlock.schema.defaults [("text", .string text)]) "text" = _
  rw [TextBlock.overlay_text]
  exact Table.find?_ofList_of_mem (TextBlock.isRestorable.nodup _) List.mem_cons_self

theorem exists_retained_notice (text : String) (st : Setting) (r : Resources) :
    ∃ nodes, TextBlock.kind.retained st r (notice text) = .ok nodes := by
  have hread : TextBlock.schema.read (notice text) = .ok { text } :=
    TextBlock.isRestorable.read_of_overlay (TextBlock.overlay_text text)
  change ∃ nodes, TextBlock.retained st r (notice text) = .ok nodes
  rw [TextBlock.retained, Schema.readForExport_eq hread]
  exact ⟨_, rfl⟩

theorem entry?_text_notice : (notice "Hello World").entity? = none ∧
    ∃ nodes n entry, TextBlock.kind.retained { target := .retained, dark := false } {} (notice "Hello World") = .ok nodes ∧
      nodes = [n] ∧ n.entry? "text" = some entry ∧ Yaml.IsTextEntry 12 "text" "Hello World" entry := by
  obtain ⟨nodes, hnodes⟩ := exists_retained_notice "Hello World" { target := .retained, dark := false } {}
  have hentity : (notice "Hello World").entity? = none := by decide
  obtain ⟨n, entry, hn, hentry, -, hiff⟩ := entry?_text_isTextEntry_iff (.inl rfl) hentity (find?_text_notice _) hnodes
  exact ⟨hentity, nodes, n, entry, hnodes, hn, hentry, hiff.mpr (by unfold Yaml.IsMistaken; decide)⟩

/-- A text that starts with the tag of code is written as code. -/
theorem not_forall_isTextEntry :
    ¬ ∀ (k : WidgetKind) (w : Widget) (s : String) (st : Setting) (r : Resources) (nodes : List RetainedNode),
      k = TextBlock.kind ∨ k = Label.kind → w.entity? = none →
      Table.find? (k.descriptor.mergedProps w) "text" = some (.string s) → k.retained st r w = .ok nodes →
      ∃ n entry, nodes = [n] ∧ n.entry? "text" = some entry ∧ Yaml.IsTextEntry 12 "text" s entry := by
  intro hall
  obtain ⟨nodes, hnodes⟩ := exists_retained_notice "!lambda return 1;" { target := .retained, dark := false } {}
  have hentity : (notice "!lambda return 1;").entity? = none := by decide
  have htext := find?_text_notice "!lambda return 1;"
  obtain ⟨n, entry, hn, hentry, hread⟩ := hall _ _ _ _ _ _ (.inl rfl) hentity htext hnodes
  obtain ⟨n', hn', hentry'⟩ := exists_entry?_text (.inl rfl) hentity htext hnodes
  obtain rfl := List.singleton_inj.mp (hn.symm.trans hn')
  rw [Option.some.inj (hentry.symm.trans hentry')] at hread
  exact Yaml.isTextEntry_entryLines_iff.mp hread (.inl (by decide))

end Kind

end Dashboard
