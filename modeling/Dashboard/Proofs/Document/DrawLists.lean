import Dashboard.Document.Declarative
import Dashboard.Proofs.Layout.Saved
/-!
# Draw lists are loaded again

The text of a draw list is read back as the draw list. The fields of an instruction stand behind its kind; the
kind tells which fields to look for, and fields that were left out are read as those that are not there.
-/

namespace Dashboard

open Json Number

namespace Instruction

/-- The fields of the kind of an instruction. -/
def record : Instruction → Record Instruction
  | .text _ => text <$> textRecord
  | .circle _ => circle <$> circleRecord
  | .rectangle _ => rectangle <$> rectangleRecord
  | .ellipse _ => ellipse <$> ellipseRecord
  | .line _ => line <$> lineRecord

theorem exists_title (i : Instruction) (o : Origin) :
    ∃ title, Decoder.variantName kinds o (Source.ofJson (.string i.kind)) = .ok (title, i.record) := by
  cases i <;> exact ⟨_, rfl⟩

theorem fieldIf_eq {α : Type} (name : String) (encode : α → Json) (v : Option α) :
    fieldIf name encode v = Condition.fieldIf name encode v := by
  cases v <;> rfl

/-! ## Values of fields -/

/-- A value that is no container and whose number, if it is one, is read back. -/
structure IsLeaf (v : Json) : Prop where
  fits : ∀ room, v.Fits room
  spelled : v.AllNumbers IsSpelled

theorem isLeaf_string (s : String) : IsLeaf (.string s) := ⟨fun room => .string room s, .string s⟩

theorem isLeaf_bool (b : Bool) : IsLeaf (.bool b) := ⟨fun room => .bool room b, .bool b⟩

theorem isLeaf_pixel (p : Pixel) : IsLeaf (pixelJson p) where
  fits := fun room => .number room _
  spelled := by
    have hlow := p.le_toInt
    have hhigh := p.toInt_lt
    have hlowest : lowestOf 64 = -9223372036854775808 := by decide
    have hlargest : (largestWhole : Int) = 18446744073709551615 := by decide
    exact allNumbers_whole (by omega) (by omega)

theorem isLeaf_count (n : UInt32) : IsLeaf (countJson n) where
  fits := fun room => .number room _
  spelled := by
    have hsize := n.toNat_lt
    have hlowest : lowestOf 64 = -9223372036854775808 := by decide
    have hlargest : (largestWhole : Int) = 18446744073709551615 := by decide
    exact allNumbers_whole (by omega) (by omega)

theorem isLeaf_fill (fill : Option String) : IsLeaf (.ofOption .string fill) := by
  cases fill with
  | none => exact ⟨fun room => .null room, .null⟩
  | some s => exact isLeaf_string s

theorem isLeaf_fieldIf {α : Type} {name : String} {encode : α → Json} {v : Option α} (h : ∀ a, IsLeaf (encode a)) :
    ∀ f ∈ fieldIf name encode v, IsLeaf f.2 := by
  rw [fieldIf_eq]
  exact Condition.forall_mem_fieldIf fun a _ => h a

theorem isLeaf_edgeFields (e : Edges) : ∀ f ∈ edgeFields e, IsLeaf f.2 := by
  simp only [edgeFields, List.forall_mem_cons]
  exact ⟨isLeaf_pixel _, isLeaf_pixel _, isLeaf_pixel _, isLeaf_pixel _, List.forall_mem_nil _⟩

/-- The fields of an instruction hold no containers. -/
theorem isLeaf_fields (i : Instruction) : ∀ f ∈ i.fields, IsLeaf f.2 := by
  cases i with
  | text d =>
    simp only [fields, textFields, List.forall_mem_append, List.forall_mem_cons]
    exact ⟨⟨⟨⟨isLeaf_string _, isLeaf_pixel _, isLeaf_pixel _, isLeaf_count _, isLeaf_string _, isLeaf_string _,
      isLeaf_string _, List.forall_mem_nil _⟩, isLeaf_fieldIf isLeaf_string⟩, isLeaf_fieldIf isLeaf_pixel⟩,
      isLeaf_fieldIf isLeaf_pixel⟩
  | circle d =>
    simp only [fields, circleFields, List.forall_mem_cons]
    exact ⟨isLeaf_pixel _, isLeaf_pixel _, isLeaf_pixel _, isLeaf_fill _, isLeaf_string _, isLeaf_count _,
      List.forall_mem_nil _⟩
  | rectangle d =>
    simp only [fields, rectangleFields, List.forall_mem_append, List.forall_mem_cons]
    exact ⟨⟨⟨isLeaf_edgeFields _, isLeaf_fill _, isLeaf_string _, isLeaf_count _, List.forall_mem_nil _⟩,
      isLeaf_fieldIf isLeaf_count⟩, isLeaf_fieldIf isLeaf_bool⟩
  | ellipse d =>
    simp only [fields, ellipseFields, List.forall_mem_append, List.forall_mem_cons]
    exact ⟨⟨isLeaf_edgeFields _, isLeaf_fill _, isLeaf_string _, isLeaf_count _, List.forall_mem_nil _⟩,
      isLeaf_fieldIf isLeaf_bool⟩
  | line d =>
    simp only [fields, lineFields, List.forall_mem_append, List.forall_mem_cons]
    exact ⟨isLeaf_edgeFields _, isLeaf_string _, isLeaf_count _, List.forall_mem_nil _⟩

/-! ## Names of fields -/

theorem keys_fieldIf_sublist {α : Type} {name : String} {encode : α → Json} {v : Option α} :
    ((fieldIf name encode v).map Prod.fst).Sublist [name] := by
  rw [fieldIf_eq]
  exact Condition.keys_fieldIf_sublist

/-- The fields of an instruction have the names of its kind, each at most once and none of them the tag. -/
theorem keys_fields_sublist (i : Instruction) : (i.fields.map Prod.fst).Sublist i.record.names := by
  cases i with
  | text d =>
    simp only [fields, textFields, List.map_append]
    exact (((List.Sublist.refl _).append keys_fieldIf_sublist).append keys_fieldIf_sublist).append
      keys_fieldIf_sublist
  | circle d => exact List.Sublist.refl _
  | rectangle d =>
    simp only [fields, rectangleFields, List.map_append]
    exact ((List.Sublist.refl _).append keys_fieldIf_sublist).append keys_fieldIf_sublist
  | ellipse d =>
    simp only [fields, ellipseFields, List.map_append]
    exact (List.Sublist.refl _).append keys_fieldIf_sublist
  | line d => exact List.Sublist.refl _

theorem nodup_names (i : Instruction) : ("type" :: i.record.names).Nodup := by
  cases i with
  | text d => exact (by decide : ("type" :: (text <$> textRecord).names).Nodup)
  | circle d => exact (by decide : ("type" :: (circle <$> circleRecord).names).Nodup)
  | rectangle d => exact (by decide : ("type" :: (rectangle <$> rectangleRecord).names).Nodup)
  | ellipse d => exact (by decide : ("type" :: (ellipse <$> ellipseRecord).names).Nodup)
  | line d => exact (by decide : ("type" :: (line <$> lineRecord).names).Nodup)

/-! ## Decoding what was written -/

theorem decode_pixel {o : Origin} (p : Pixel) : Decoder.int32 o (Source.ofJson (pixelJson p)) = .ok p := by
  have hlow : lowestOf 32 ≤ p.toInt := p.le_toInt
  have hhigh : p.toInt ≤ highestOf 32 := Int.le_sub_one_of_lt p.toInt_lt
  have hchecked : Decoder.integer "i32" (lowestOf 32) (highestOf 32) o (Source.ofJson (pixelJson p)) = .ok p.toInt := by
    change (if lowestOf 32 ≤ p.toInt && p.toInt ≤ highestOf 32 then _ else _) = _
    rw [decide_eq_true hlow, decide_eq_true hhigh]
    rfl
  unfold Decoder.int32 Decoder.map
  rw [hchecked]
  exact congrArg Except.ok (Int32.ofInt_toInt p)

section fields

variable {o : Origin} {fs : JsonFields} {name : String}

theorem accepts_pixel {p : Pixel} (h : fs.lookup name = some (pixelJson p)) :
    (Record.required name .int32).Accepts o fs p := .field h (decode_pixel p)

theorem accepts_count {n : UInt32} (h : fs.lookup name = some (countJson n)) :
    (Record.required name .uint32).Accepts o fs n := .field h (Kind.decode_count n)

theorem accepts_string {s : String} (h : fs.lookup name = some (.string s)) :
    (Record.required name .string).Accepts o fs s := .field h rfl

theorem accepts_fill {v : Option String} (h : fs.lookup name = some (.ofOption .string v)) :
    (Record.nullableField name .string).Accepts o fs v := .field h (by cases v <;> rfl)

theorem accepts_optionalPixel {v : Option Pixel} (h : fs.lookup name = v.map pixelJson) :
    (Record.optional name .int32).Accepts o fs v := .optional h fun p _ => by
  change (Decoder.int32 o (Source.ofJson (pixelJson p))).map some = _
  rw [decode_pixel]
  rfl

theorem accepts_optionalCount {v : Option UInt32} (h : fs.lookup name = v.map countJson) :
    (Record.optional name .uint32).Accepts o fs v := .optional h fun n _ => by
  change (Decoder.uint32 o (Source.ofJson (Kind.count n))).map some = _
  rw [Kind.decode_count]
  rfl

theorem accepts_optionalBool {v : Option Bool} (h : fs.lookup name = v.map .bool) :
    (Record.optional name .bool).Accepts o fs v := .optional h fun _ _ => rfl

theorem edges_accepts {e : Edges} (h : edgeFields e <+: fs) : edges.Accepts o fs e := by
  obtain ⟨rest, rfl⟩ := h
  exact (((Record.Accepts.map (accepts_pixel (p := e.left) rfl) Edges.mk).seq (accepts_pixel (p := e.top) rfl)).seq
    (accepts_pixel (p := e.right) rfl)).seq (accepts_pixel (p := e.bottom) rfl)

end fields

theorem lookup_fieldIf {α : Type} {name key : String} {encode : α → Json} {v : Option α} :
    (fieldIf name encode v).lookup key = if key = name then v.map encode else none := by
  rw [fieldIf_eq]
  exact Condition.lookup_fieldIf

theorem textRecord_accepts {o : Origin} (d : TextDraw) : textRecord.Accepts o (textFields d) d := by
  refine (((((((((Record.Accepts.map (accepts_string (s := d.value) ?_) _).seq (accepts_pixel (p := d.x) ?_)).seq
    (accepts_pixel (p := d.y) ?_)).seq (accepts_count (n := d.size) ?_)).seq (accepts_string (s := d.color) ?_)).seq
    (accepts_string (s := d.anchor) ?_)).seq (accepts_string (s := d.font) ?_)).seq
    (.optionalString (v := d.align) ?_)).seq (accepts_optionalPixel (v := d.maxWidth) ?_)).seq
    (accepts_optionalPixel (v := d.spacing) ?_)
  all_goals
    simp [textFields, List.lookup_append, List.lookup_cons, lookup_fieldIf]

theorem circleRecord_accepts {o : Origin} (d : CircleDraw) : circleRecord.Accepts o (circleFields d) d :=
  (((((Record.Accepts.map (accepts_pixel (p := d.x) rfl) _).seq (accepts_pixel (p := d.y) rfl)).seq
    (accepts_pixel (p := d.radius) rfl)).seq (accepts_fill (v := d.fill) rfl)).seq
    (accepts_string (s := d.outline) rfl)).seq (accepts_count (n := d.width) rfl)

theorem rectangleRecord_accepts {o : Origin} (d : RectangleDraw) :
    rectangleRecord.Accepts o (rectangleFields d) d := by
  refine (((((Record.Accepts.map (edges_accepts (e := d.edges) ?_) _).seq (accepts_fill (v := d.fill) ?_)).seq
    (accepts_string (s := d.outline) ?_)).seq (accepts_count (n := d.width) ?_)).seq
    (accepts_optionalCount (v := d.radius) ?_)).seq (accepts_optionalBool (v := d.visible) ?_)
  · simp [rectangleFields]
  all_goals
    simp [rectangleFields, edgeFields, List.lookup_append, List.lookup_cons, lookup_fieldIf]

theorem ellipseRecord_accepts {o : Origin} (d : EllipseDraw) : ellipseRecord.Accepts o (ellipseFields d) d := by
  refine ((((Record.Accepts.map (edges_accepts (e := d.edges) ?_) _).seq (accepts_fill (v := d.fill) ?_)).seq
    (accepts_string (s := d.outline) ?_)).seq (accepts_count (n := d.width) ?_)).seq
    (accepts_optionalBool (v := d.visible) ?_)
  · simp [ellipseFields]
  all_goals
    simp [ellipseFields, edgeFields, List.lookup_cons, lookup_fieldIf]

theorem lineRecord_accepts {o : Origin} (d : LineDraw) : lineRecord.Accepts o (lineFields d) d :=
  ((Record.Accepts.map (edges_accepts (List.prefix_append _ _)) _).seq (accepts_string (s := d.fill) rfl)).seq
    (accepts_count (n := d.width) rfl)

/-- The fields of an instruction are read as the instruction, once its kind is known. -/
theorem record_accepts {o : Origin} (i : Instruction) : i.record.Accepts o i.fields i := by
  cases i with
  | text d => exact (textRecord_accepts d).map text
  | circle d => exact (circleRecord_accepts d).map circle
  | rectangle d => exact (rectangleRecord_accepts d).map rectangle
  | ellipse d => exact (ellipseRecord_accepts d).map ellipse
  | line d => exact (lineRecord_accepts d).map line

/-- First the tag is read, and then the other fields by the record that the tag stands for. -/
theorem decoder_ofJson {o : Origin} {room : Nat} (hopen : o.enter = .ok (.text room)) (i : Instruction) :
    decoder o (Source.ofJson i.toJson) = .ok i := by
  obtain ⟨title, htitle⟩ := exists_title i (.text room)
  have hdistinct : (("type" :: i.fields.map Prod.fst)).Nodup :=
    ((keys_fields_sublist i).cons_cons "type").nodup (nodup_names i)
  have htag : ∀ f ∈ [("type", Json.string i.kind)], f.1 ∈ (Record.required "type" (Decoder.variantName kinds)).names :=
    List.forall_mem_singleton.mpr (List.mem_singleton.mpr rfl)
  have hothers : ∀ f ∈ i.fields, f.1 ∉ (Record.required "type" (Decoder.variantName kinds)).names := by
    intro f hf hname
    have hkey : f.1 ∈ i.fields.map Prod.fst := List.mem_map_of_mem hf
    rw [List.mem_singleton.mp hname] at hkey
    exact (List.nodup_cons.mp hdistinct).1 hkey
  have haccepts : (Record.required "type" (Decoder.variantName kinds)).Accepts (.text room)
      (("type", .string i.kind) :: i.fields) (title, i.record) := .field rfl htitle
  have hread := haccepts.openEnded hopen hdistinct (fun f hf _ => Source.toJson_ofJson ?_)
    "internally tagged enum DrawInstruction"
  · have hrest := List.filter_append [("type", Json.string i.kind)] i.fields
      (p := fun f => ((Record.required "type" (Decoder.variantName kinds)).check? f.1).isNone)
    rw [Record.filter_known htag, Record.filter_unknown hothers, List.nil_append, List.singleton_append] at hrest
    rw [hrest] at hread
    change ((Record.required "type" (Decoder.variantName kinds)).openEnded _ o (Source.ofJson (.object _)) >>= _) = _
    rw [hread]
    exact (record_accepts i).ofRest (List.nodup_cons.mp hdistinct).2
  · rcases List.mem_cons.mp hf with rfl | hf
    · exact (isLeaf_string i.kind).fits room
    · exact (isLeaf_fields i f hf).fits room

theorem allNumbers_toJson (i : Instruction) : i.toJson.AllNumbers IsSpelled :=
  .object (List.forall_mem_cons.mpr ⟨.string _, fun f hf => (isLeaf_fields i f hf).spelled⟩)

end Instruction

namespace DeclarativePage

theorem decode_index {o : Origin} {n : Nat} (h : n < 2 ^ 64) : Decoder.index o (Source.ofJson (.ofNat n)) = .ok n := by
  have hhigh : (n : Int) ≤ (twoTo 64 - 1 : Nat) := by
    have hpow : twoTo 64 = 2 ^ 64 := by decide
    omega
  unfold Decoder.index Decoder.map
  rw [Kind.decode_ofNat "usize" hhigh]
  rfl

variable {p : DeclarativePage}

theorem decoder_ofJson (h : p.id < 2 ^ 64) : decoder (.text 126) (Source.ofJson p.toJson) = .ok p := by
  have haccepts : record.Accepts (.text 125) [("id", .ofNat p.id), ("name", .string p.name),
      ("instructions", .array (p.instructions.map Instruction.toJson))] p :=
    ((Record.Accepts.map (.field rfl (decode_index h)) DeclarativePage.mk).seq
      (.field (v := .string p.name) rfl rfl)).seq
      (.field rfl (Decoder.list_ofJson rfl fun i _ => Instruction.decoder_ofJson rfl i))
  exact haccepts.closed rfl (by simp) "struct DeclarativePage"

theorem allNumbers_toJson (h : p.id < 2 ^ 64) : p.toJson.AllNumbers IsSpelled := by
  have hlowest : lowestOf 64 = -9223372036854775808 := by decide
  have hlargest : (largestWhole : Int) = 18446744073709551615 := by decide
  refine .object (List.forall_mem_cons.mpr ⟨allNumbers_whole (by omega) (by omega), List.forall_mem_cons.mpr
    ⟨.string _, List.forall_mem_singleton.mpr (.array fun v hv => ?_)⟩⟩)
  obtain ⟨i, -, rfl⟩ := List.mem_map.mp hv
  exact i.allNumbers_toJson

end DeclarativePage

namespace DeclarativeDocument

variable {d : DeclarativeDocument}

theorem decoder_ofJson (h : ∀ p ∈ d.pages, p.id < 2 ^ 64) : decoder .ofText (Source.ofJson d.toJson) = .ok d := by
  have hflavor : Flavor.decoder (.text 127) (Source.ofJson (.string d.flavor.name)) = .ok d.flavor := by
    cases d.flavor <;> rfl
  have haccepts : record.Accepts (.text 127)
      [("flavor", .string d.flavor.name), ("pages", .array (d.pages.map DeclarativePage.toJson))] d :=
    (Record.Accepts.map (.field rfl hflavor) DeclarativeDocument.mk).seq
      (.field rfl (Decoder.list_ofJson rfl fun p hp => DeclarativePage.decoder_ofJson (h p hp)))
  exact haccepts.closed rfl (by simp) "struct DeclarativeDocument"

theorem allNumbers_toJson (h : ∀ p ∈ d.pages, p.id < 2 ^ 64) : d.toJson.AllNumbers IsSpelled := by
  refine .object (List.forall_mem_cons.mpr ⟨.string _, List.forall_mem_singleton.mpr (.array fun v hv => ?_)⟩)
  obtain ⟨p, hp, rfl⟩ := List.mem_map.mp hv
  exact DeclarativePage.allNumbers_toJson (h p hp)

/-- The text of a draw list whose pages have an index of 64 bits is loaded as the draw list. -/
theorem load_text (h : ∀ p ∈ d.pages, p.id < 2 ^ 64) : load d.text = .ok d := by
  refine ofText_eq_ok.mpr ?_
  rw [text, Source.ofText_spread (allNumbers_toJson h)]
  exact ⟨decoder_ofJson h, rfl⟩

theorem load_text_panel :
    let d : DeclarativeDocument := ⟨.openDisplay, [
      ⟨0, "Hall \"\x01\"\n", [.circle ⟨-2147483648, 5, 7, none, "red", 1⟩,
        .text ⟨"é\\", 0, -1, 4294967295, "black", "lt", "a.ttf", none, none, some 3⟩]⟩,
      ⟨18446744073709551615, "", []⟩]⟩
    (∀ p ∈ d.pages, p.id < 2 ^ 64) ∧ load d.text = .ok d :=
  ⟨by decide, load_text (by decide)⟩

end DeclarativeDocument

end Dashboard
