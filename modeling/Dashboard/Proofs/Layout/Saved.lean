import Dashboard.Layout.Page
import Dashboard.Proofs.Json.Answers
import Dashboard.Proofs.Json.Reading
import Dashboard.Proofs.Kind.Restored
/-!
# Saved layouts are loaded again

A saved layout is the text of a value that the decoder of layouts accepts, and the answer is the layout. It
takes two things. The layout must be in the form that all layouts are in that were loaded: its bags are in
key order and no deeper than a text can be. And every floating point number must have a numeral that is
read as the number; an infinite one has none.
-/

namespace Dashboard

open Json Number

/-- Every floating point number of a value satisfies a predicate. -/
def Json.AllReals (P : Binary64 → Prop) (v : Json) : Prop := v.AllNumbers fun n => ∀ x, n = .real x → P x

/-- The floating point numbers of a widget satisfy a predicate, and those in its properties another one. -/
structure Widget.AllReals (P Q : Binary64 → Prop) (w : Widget) : Prop where
  x : P w.x
  y : P w.y
  width : P w.width
  height : P w.height
  lowest : ∀ b ∈ w.condition.lowest, P b
  highest : ∀ b ∈ w.condition.highest, P b
  props : ∀ e ∈ w.props, e.2.AllReals Q

structure Layout.AllReals (P Q : Binary64 → Prop) (l : Layout) : Prop where
  extra : ∀ e ∈ l.settings.extra, e.2.AllReals Q
  widgets : ∀ w ∈ l.widgets, w.AllReals P Q

section mono

variable {P Q P' Q' : Binary64 → Prop} (hP : ∀ x, P x → P' x) (hQ : ∀ x, Q x → Q' x)

include hQ

theorem Json.AllReals.mono {v : Json} (hv : v.AllReals Q) : v.AllReals Q' :=
  hv.and hv fun _ hq _ x hx => hQ x (hq x hx)

include hP

theorem Widget.AllReals.mono {w : Widget} (hw : w.AllReals P Q) : w.AllReals P' Q' where
  x := hP _ hw.x
  y := hP _ hw.y
  width := hP _ hw.width
  height := hP _ hw.height
  lowest := fun b hb => hP b (hw.lowest b hb)
  highest := fun b hb => hP b (hw.highest b hb)
  props := fun e he => (hw.props e he).mono hQ

theorem Layout.AllReals.mono {l : Layout} (hl : l.AllReals P Q) : l.AllReals P' Q' where
  extra := fun e he => (hl.extra e he).mono hQ
  widgets := fun w hw => (hl.widgets w hw).mono hP hQ

end mono

/-- Every floating point number of a layout is read back from its numeral. -/
def Layout.IsLegible (l : Layout) : Prop := l.AllReals IsReadBack IsReadBack

/-- A number that is saved as one that is read back, or as no number at all. -/
def Json.IsWritable (x : Binary64) : Prop := x.isFinite = true → IsReadBack x

/-- A bag in key order whose values have whole numbers of at most 64 bits and are no deeper than the room. -/
structure Bag.IsStored (room : Nat) (b : Bag) : Prop where
  sorted : Table.Sorted b
  fits : ∀ e ∈ b, e.2.Fits room
  inRange : ∀ e ∈ b, e.2.AllNumbers InRange

/-- The bags of all widgets of a page are in stored form. -/
def Page.IsStored (room : Nat) (p : Page) : Prop := ∀ w ∈ p.widgets, w.props.IsStored room

/-- The extra settings are in stored form, and none of them belongs to a field. -/
structure Settings.IsStored (s : Settings) : Prop where
  extra : s.extra.IsStored 126
  unknown : ∀ e ∈ s.extra, e.1 ∉ Settings.record.names

/-- The form of all layouts that were loaded. A bag of properties lies six levels deep, the extra settings
two levels. -/
structure Layout.IsStored (l : Layout) : Prop where
  settings : l.settings.IsStored
  pages : ∀ p ∈ l.pages, p.IsStored 122

/-! ## Fields that may be left out -/

namespace Condition

variable {α : Type} {name key : String} {encode : α → Json} {v : Option α}

theorem lookup_fieldIf : (fieldIf name encode v).lookup key = if key = name then v.map encode else none := by
  cases v with
  | none => simp [fieldIf]
  | some a =>
    rw [fieldIf, List.lookup_cons]
    by_cases h : key = name
    · simp [h]
    · simp [h, beq_eq_false_iff_ne.mpr h]

theorem forall_mem_fieldIf {P : Json → Prop} (h : ∀ a ∈ v, P (encode a)) : ∀ e ∈ fieldIf name encode v, P e.2 := by
  cases v with
  | none => exact fun _ he => absurd he List.not_mem_nil
  | some a => exact List.forall_mem_singleton.mpr (h a rfl)

theorem keys_fieldIf_sublist : ((fieldIf name encode v).map Prod.fst).Sublist [name] := by
  cases v with
  | none => exact List.nil_sublist _
  | some a => exact List.Sublist.refl _

end Condition

/-! ## Numbers of saved layouts -/

theorem allNumbers_ofReal {x : Binary64} (h : IsWritable x) : (Json.ofReal x).AllNumbers IsSpelled := by
  rw [Json.ofReal]
  split
  · next hfinite => exact .number (isSpelled_real (h hfinite))
  · exact .null

theorem Bag.IsStored.allNumbers {room : Nat} {b : Bag} (h : b.IsStored room)
    (hreals : ∀ e ∈ b, e.2.AllReals IsReadBack) : ∀ e ∈ b, e.2.AllNumbers IsSpelled := fun e he =>
  (h.inRange e he).and (hreals e he) fun _ hrange hreal => isSpelled_of_inRange hrange hreal

theorem allNumbers_whole {i : Int} (low : lowestOf 64 ≤ i) (high : i ≤ (largestWhole : Int)) :
    (Json.ofInt i).AllNumbers IsSpelled := .number (isSpelled_whole low high)

theorem Widget.allNumbers_toJson {w : Widget} (h : w.AllReals IsWritable IsReadBack) (hprops : w.props.IsStored 122) :
    w.toJson.AllNumbers IsSpelled := by
  refine .object ?_
  simp only [List.forall_mem_append, List.forall_mem_cons, Condition.toFields]
  refine ⟨⟨⟨⟨⟨⟨.string _, .string _, allNumbers_ofReal h.x, allNumbers_ofReal h.y,
    allNumbers_ofReal h.width, allNumbers_ofReal h.height, fun _ he => absurd he List.not_mem_nil⟩,
    ?_⟩, ?_⟩, ?_⟩, ⟨⟨⟨?_, ?_⟩, ?_⟩, ?_⟩, ?_⟩, .object (hprops.allNumbers h.props),
    fun _ he => absurd he List.not_mem_nil⟩
  · exact Condition.forall_mem_fieldIf fun _ _ => .string _
  · exact Condition.forall_mem_fieldIf fun _ _ => .string _
  · exact Condition.forall_mem_fieldIf fun _ _ => .string _
  · exact Condition.forall_mem_fieldIf fun _ _ => .string _
  · exact Condition.forall_mem_fieldIf fun _ _ => .string _
  · exact Condition.forall_mem_fieldIf fun _ _ => .string _
  · exact Condition.forall_mem_fieldIf fun b hb => allNumbers_ofReal (h.lowest b hb)
  · exact Condition.forall_mem_fieldIf fun b hb => allNumbers_ofReal (h.highest b hb)

theorem Page.allNumbers_toJson {p : Page} (h : ∀ w ∈ p.widgets, w.toJson.AllNumbers IsSpelled) :
    p.toJson.AllNumbers IsSpelled := by
  refine .object ?_
  simp only [List.forall_mem_append, List.forall_mem_cons]
  refine ⟨⟨⟨.string _, .string _, fun _ he => absurd he List.not_mem_nil⟩, ?_⟩, .array ?_,
    fun _ he => absurd he List.not_mem_nil⟩
  · refine Condition.forall_mem_fieldIf fun seconds _ => ?_
    have hlow : lowestOf 64 ≤ 0 := by decide
    have hhigh : 2 ^ 32 ≤ largestWhole := by decide
    have hsize := seconds.toNat_lt
    exact allNumbers_whole (by omega) (by omega)
  · intro v hv
    obtain ⟨w, hw, rfl⟩ := List.mem_map.mp hv
    exact h w hw

theorem Layout.allNumbers_toJson {l : Layout} (hs : l.IsStored) (hl : l.AllReals IsWritable IsReadBack) :
    l.toJson.AllNumbers IsSpelled := by
  refine .object (List.forall_mem_cons.mpr ⟨.object ?_, List.forall_mem_singleton.mpr (.array ?_)⟩)
  · simp only [List.forall_mem_append, List.forall_mem_cons]
    exact ⟨⟨.string _, .bool _, fun _ he => absurd he List.not_mem_nil⟩, hs.settings.extra.allNumbers hl.extra⟩
  · intro v hv
    obtain ⟨p, hp, rfl⟩ := List.mem_map.mp hv
    refine Page.allNumbers_toJson fun w hw => ?_
    have hmem : w ∈ l.widgets := List.mem_flatMap.mpr ⟨p, hp, hw⟩
    exact Widget.allNumbers_toJson (hl.widgets w hmem) (hs.pages p hp w hw)

/-! ## Decoding what was written -/

namespace Json.Record

variable {α : Type} {r : Record α} {fs : List (String × Json)}

theorem filter_known (h : ∀ f ∈ fs, f.1 ∈ r.names) : (fs.filter fun f => (r.check? f.1).isNone) = [] := by
  refine List.filter_eq_nil_iff.mpr fun f hf => ?_
  rw [Option.isNone_iff_eq_none, check?_eq_none]
  exact not_not_intro (h f hf)

theorem filter_unknown (h : ∀ f ∈ fs, f.1 ∉ r.names) : (fs.filter fun f => (r.check? f.1).isNone) = fs := by
  refine List.filter_eq_self.mpr fun f hf => ?_
  rw [Option.isNone_iff_eq_none, check?_eq_none]
  exact h f hf

end Json.Record

theorem Orientation.decoder_ofJson (o : Orientation) (origin : Origin) :
    Orientation.decoder origin (Source.ofJson (.string o.name)) = .ok o := by
  cases o <;> rfl

theorem Settings.decoder_ofJson {s : Settings} (h : s.IsStored) :
    Settings.decoder (.text 127) (Source.ofJson s.toJson) = .ok s := by
  let known : List (String × Json) :=
    [("orientation", .string s.orientation.name), ("dark_mode", .bool s.darkMode)]
  have hnames : ∀ f ∈ known, f.1 ∈ Settings.record.names :=
    List.forall_mem_cons.mpr ⟨List.mem_cons_self, List.forall_mem_singleton.mpr
      (List.mem_cons_of_mem _ List.mem_cons_self)⟩
  have haccepts : Settings.record.Accepts (.text 126) (known ++ s.extra)
      (Settings.mk s.orientation s.darkMode) :=
    ((Record.Accepts.field rfl (Orientation.decoder_ofJson _ _)).map Settings.mk).seq
      (Record.Accepts.field rfl rfl)
  have hdistinct : ((known ++ s.extra).map Prod.fst).Nodup := by
    rw [List.map_append]
    refine List.nodup_append.mpr ⟨by simp [known], Table.nodup_keys h.extra.sorted, ?_⟩
    intro name hname other hother
    obtain ⟨f, hf, rfl⟩ := List.mem_map.mp hname
    obtain ⟨e, he, rfl⟩ := List.mem_map.mp hother
    exact fun heq => h.unknown e he (heq ▸ hnames f hf)
  have hopen := haccepts.openEnded (o := .text 127) rfl hdistinct
    (fun f hf hnot => by
      rcases List.mem_append.mp hf with hf | hf
      · exact absurd (hnames f hf) hnot
      · exact Source.toJson_ofJson (h.extra.fits f hf)) "struct LayoutSettings"
  rw [List.filter_append, Record.filter_known hnames, Record.filter_unknown h.unknown, List.nil_append] at hopen
  change (record.openEnded "struct LayoutSettings" (.text 127) (Source.ofJson (.object (known ++ s.extra))) >>= _) = _
  rw [hopen]
  change Except.ok (Settings.mk s.orientation s.darkMode (Table.ofList s.extra)) = _
  rw [Table.ofList_of_sorted h.extra.sorted]

namespace Json.Record.Accepts

variable {α : Type} {o : Origin} {fs : List (String × Json)} {name : String} {encode : α → Json}
  {d : Decoder α} {v : Option α}

/-- A field that may be left out is accepted if it stands for what it was written for. -/
theorem optional (hv : fs.lookup name = v.map encode)
    (hd : ∀ a ∈ v, Decoder.nullable d o (Source.ofJson (encode a)) = .ok (some a)) :
    (Record.optional name d).Accepts o fs v := by
  cases v with
  | none => exact absent hv rfl
  | some a => exact field hv (hd a rfl)

theorem optionalString {v : Option String} (hv : fs.lookup name = v.map .string) :
    (Record.optional name .string).Accepts o fs v := optional hv fun _ _ => rfl

end Json.Record.Accepts

theorem Condition.record_accepts {c : Condition} (hlow : ∀ b ∈ c.lowest, IsReadBack b)
    (hhigh : ∀ b ∈ c.highest, IsReadBack b) : Condition.record.Accepts .value c.toFields c := by
  have hbound : ∀ {b : Binary64}, IsReadBack b → Condition.bound .value (Source.ofJson (.ofReal b)) = .ok (some b) := by
    intro b hb
    rw [ofReal_eq hb]
    rfl
  have hfields : ∀ {name : String} {v : Option Binary64}, c.toFields.lookup name = v.map .ofReal →
      (∀ b ∈ v, IsReadBack b) → (Record.withDefault name Condition.bound none).Accepts .value c.toFields v := by
    intro name v hv hreal
    cases v with
    | none => exact .absent hv rfl
    | some b => exact .field hv (hbound (hreal b rfl))
  refine ((((Record.Accepts.map (.optionalString ?_) Condition.mk).seq (.optionalString ?_)).seq
    (.optionalString ?_)).seq (hfields ?_ hlow)).seq (hfields ?_ hhigh)
  all_goals
    simp [Condition.toFields, List.lookup_append, Condition.lookup_fieldIf]

theorem fits_ofReal {room : Nat} (x : Binary64) : (Json.ofReal x).Fits room := by
  rw [Json.ofReal]
  split
  · exact .number room _
  · exact .null room

theorem Condition.fits_toFields (c : Condition) {room : Nat} : ∀ f ∈ c.toFields, f.2.Fits room := by
  simp only [toFields, List.forall_mem_append]
  exact ⟨⟨⟨⟨forall_mem_fieldIf fun s _ => .string room s, forall_mem_fieldIf fun s _ => .string room s⟩,
    forall_mem_fieldIf fun s _ => .string room s⟩, forall_mem_fieldIf fun b _ => fits_ofReal b⟩,
    forall_mem_fieldIf fun b _ => fits_ofReal b⟩

theorem Condition.keys_toFields_sublist (c : Condition) : (c.toFields.map Prod.fst).Sublist
    ["condition_entity", "condition_operator", "condition_state", "condition_min", "condition_max"] := by
  simp only [Condition.toFields, List.map_append]
  exact ((((keys_fieldIf_sublist.append keys_fieldIf_sublist).append keys_fieldIf_sublist).append
    keys_fieldIf_sublist).append keys_fieldIf_sublist)

/-- The fields of a widget that come before its condition. -/
def Widget.headFields (w : Widget) : List (String × Json) :=
  [("id", .string w.id), ("type", .string w.kind), ("x", .ofReal w.x), ("y", .ofReal w.y),
      ("width", .ofReal w.width), ("height", .ofReal w.height)] ++
    Condition.fieldIf "title" .string w.title ++ Condition.fieldIf "entity_id" .string w.entityId ++
    Condition.fieldIf "entity_id_2" .string w.secondEntityId

namespace Widget

variable {w : Widget}

theorem toJson_eq (w : Widget) :
    w.toJson = .object (w.headFields ++ w.condition.toFields ++ [("props", .object w.props)]) := rfl

theorem keys_headFields_sublist (w : Widget) : (w.headFields.map Prod.fst).Sublist
    ["id", "type", "x", "y", "width", "height", "title", "entity_id", "entity_id_2"] := by
  simp only [headFields, List.map_append]
  exact (((List.Sublist.refl _).append Condition.keys_fieldIf_sublist).append
    Condition.keys_fieldIf_sublist).append Condition.keys_fieldIf_sublist

theorem record_accepts (h : w.AllReals IsReadBack IsReadBack) (hprops : w.props.IsStored 122) :
    Widget.record.Accepts (.text 123)
      (w.headFields ++ w.condition.toFields ++ [("props", .object w.props)])
      fun condition => { w with condition } := by
  have hreal : ∀ {b : Binary64}, IsReadBack b →
      Decoder.real (.text 123) (Source.ofJson (.ofReal b)) = .ok b := by
    intro b hb
    rw [ofReal_eq hb]
    rfl
  refine ((((((((((Record.Accepts.map (.field (v := .string w.id) ?_ rfl) _).seq
    (.field (v := .string w.kind) ?_ rfl)).seq (.field ?_ (hreal h.x))).seq (.field ?_ (hreal h.y))).seq
    (.field ?_ (hreal h.width))).seq (.field ?_ (hreal h.height))).seq (.optionalString (v := w.title) ?_)).seq
    (.optionalString (v := w.entityId) ?_)).seq (.optionalString (v := w.secondEntityId) ?_)).seq
    (.field (v := .object w.props) ?_ (Decoder.bag_ofJson rfl hprops.sorted hprops.fits)))
  all_goals
    simp [headFields, Condition.toFields, List.lookup_append, List.lookup_cons, Condition.lookup_fieldIf]

theorem decoder_ofJson (h : w.AllReals IsReadBack IsReadBack) (hprops : w.props.IsStored 122) :
    Widget.decoder (.text 124) (Source.ofJson w.toJson) = .ok w := by
  have hhead : ∀ f ∈ w.headFields, f.1 ∈ Widget.record.names := by
    intro f hf
    have hmem := (keys_headFields_sublist w).subset (List.mem_map_of_mem hf)
    exact List.mem_append_left ["props"] hmem
  have hcondition : ∀ f ∈ w.condition.toFields, f.1 ∉ Widget.record.names := by
    intro f hf
    have hmem := (Condition.keys_toFields_sublist w.condition).subset (List.mem_map_of_mem hf)
    have hapart : ∀ name ∈ ["condition_entity", "condition_operator", "condition_state", "condition_min",
        "condition_max"], name ∉ Widget.record.names := by decide
    exact hapart _ hmem
  have hlastName : "props" ∈ Widget.record.names := by decide
  have hlast : ∀ f ∈ [("props", Json.object w.props)], f.1 ∈ Widget.record.names :=
    List.forall_mem_singleton.mpr hlastName
  have hdistinct : ((w.headFields ++ w.condition.toFields ++ [("props", Json.object w.props)]).map Prod.fst).Nodup := by
    rw [List.map_append, List.map_append]
    exact (((keys_headFields_sublist w).append (Condition.keys_toFields_sublist w.condition)).append
      (List.Sublist.refl ["props"])).nodup (by decide)
  have hopen := (record_accepts h hprops).openEnded (o := .text 124) rfl hdistinct
    (fun f hf hnot => by
      rcases List.mem_append.mp hf with hf | hf
      · rcases List.mem_append.mp hf with hf | hf
        · exact absurd (hhead f hf) hnot
        · exact Source.toJson_ofJson (w.condition.fits_toFields f hf)
      · exact absurd (hlast f hf) hnot) "struct Widget"
  rw [List.filter_append, List.filter_append, Record.filter_known hhead, Record.filter_unknown hcondition,
    Record.filter_known hlast, List.nil_append, List.append_nil] at hopen
  have hdecoded := (Condition.record_accepts h.lowest h.highest).ofRest
    ((Condition.keys_toFields_sublist w.condition).nodup (by decide))
  rw [toJson_eq]
  change (record.openEnded "struct Widget" (.text 124) (Source.ofJson (.object _)) >>= _) = _
  rw [hopen]
  change (Condition.record.ofRest w.condition.toFields >>= _) = _
  rw [hdecoded]
  rfl

end Widget

/-- The fields of a page. -/
def Page.toFields (p : Page) : List (String × Json) :=
  [("id", .string p.id), ("name", .string p.name)] ++
    Condition.fieldIf "refresh_s" Kind.count p.refreshSeconds ++
    [("widgets", .array (p.widgets.map Widget.toJson))]

namespace Page

variable {p : Page}

theorem toJson_eq (p : Page) : p.toJson = .object p.toFields := rfl

theorem keys_toFields_sublist (p : Page) :
    (p.toFields.map Prod.fst).Sublist ["id", "name", "refresh_s", "widgets"] := by
  rw [toFields, List.map_append, List.map_append]
  exact ((List.Sublist.refl ["id", "name"]).append Condition.keys_fieldIf_sublist).append (List.Sublist.refl _)

theorem record_accepts (h : ∀ w ∈ p.widgets, Widget.decoder (.text 124) (Source.ofJson w.toJson) = .ok w) :
    Page.record.Accepts (.text 125) p.toFields p := by
  have hrefresh : p.toFields.lookup "refresh_s" = p.refreshSeconds.map Kind.count := by
    simp [toFields, List.lookup_append, List.lookup_cons, Condition.lookup_fieldIf]
  have hcount : ∀ n : UInt32, Decoder.nullable .uint32 (.text 125) (Source.ofJson (Kind.count n)) = .ok (some n) := by
    intro n
    change (Decoder.uint32 (.text 125) (Source.ofJson (Kind.count n))).map some = _
    rw [Kind.decode_count]
    rfl
  refine (((Record.Accepts.map (.field (v := .string p.id) rfl rfl) _).seq
    (.field (v := .string p.name) rfl rfl)).seq (.optional hrefresh fun n _ => hcount n)).seq
    (.field (v := .array (p.widgets.map Widget.toJson)) ?_ (Decoder.list_ofJson rfl h))
  simp [toFields, List.lookup_append, List.lookup_cons, Condition.lookup_fieldIf]

theorem decoder_ofJson (h : ∀ w ∈ p.widgets, Widget.decoder (.text 124) (Source.ofJson w.toJson) = .ok w) :
    Page.decoder (.text 126) (Source.ofJson p.toJson) = .ok p := by
  rw [toJson_eq]
  exact (record_accepts h).closed rfl ((keys_toFields_sublist p).nodup (by decide)) "struct Page"

end Page

theorem Layout.decoder_ofJson {l : Layout} (hs : l.IsStored) (hl : l.IsLegible) :
    Layout.decoder .ofText (Source.ofJson l.toJson) = .ok l := by
  have hpage : ∀ p ∈ l.pages, Page.decoder (.text 126) (Source.ofJson p.toJson) = .ok p := fun p hp =>
    Page.decoder_ofJson fun w hw =>
      have hmem : w ∈ l.widgets := List.mem_flatMap.mpr ⟨p, hp, hw⟩
      Widget.decoder_ofJson (hl.widgets w hmem) (hs.pages p hp w hw)
  have haccepts : Layout.record.Accepts (.text 127)
      [("settings", l.settings.toJson), ("pages", .array (l.pages.map Page.toJson))] l :=
    (Record.Accepts.map (.field rfl (Settings.decoder_ofJson hs.settings)) Layout.mk).seq
      (.field rfl (Decoder.list_ofJson rfl hpage))
  exact haccepts.closed rfl (by simp) "struct Layout"

/-- What a saved text is read as: the value that was written. -/
theorem Layout.ofText_save {l : Layout} (hs : l.IsStored) (hl : l.AllReals IsWritable IsReadBack) :
    Source.ofText l.save = (Source.ofJson l.toJson, false) := Source.ofText_spread (allNumbers_toJson hs hl)

/-- A layout in stored form whose numbers are read back is loaded from its own text. -/
theorem Layout.load_save {l : Layout} (hs : l.IsStored) (hl : l.IsLegible) : load l.save = .ok l := by
  have hwritable : l.AllReals IsWritable IsReadBack := hl.mono (fun x hx => (fun _ => hx : IsWritable x)) fun _ hx => hx
  have hdecoded : Json.ofText decoder l.save = .ok l := by
    refine ofText_eq_ok.mpr ?_
    rw [ofText_save hs hwritable]
    exact ⟨decoder_ofJson hs hl, rfl⟩
  rw [load, hdecoded]

end Dashboard
