import Dashboard.Proofs.Kind.Schemas
import Dashboard.Kind.Registry
/-!
# Properties of the built-in kinds

Kind by kind, the properties of a widget of drawing code survive their marker.
-/

namespace Dashboard.Kind

open Dashboard.Json Dashboard.Number Dashboard.Json.Record

/-! ## Fields -/

theorem decode_ofNat (name : String) {o : Origin} {n : Nat} {highest : Int} (h : (n : Int) ≤ highest) :
    Decoder.integer name 0 highest o (Source.ofJson (.ofNat n)) = .ok (n : Int) := by
  have hlow : (0 : Int) ≤ n := Int.natCast_nonneg n
  change (if (0 : Int) ≤ n && (n : Int) ≤ highest then _ else _) = _
  rw [decide_eq_true hlow, decide_eq_true h]
  rfl

theorem decode_count {o : Origin} (n : UInt32) : Decoder.uint32 o (Source.ofJson (count n)) = .ok n := by
  have hhigh : (n.toNat : Int) ≤ (twoTo 32 - 1 : Nat) := by
    have hlt := n.toNat_lt
    have hpow : twoTo 32 = 4294967296 := by decide
    omega
  unfold Decoder.uint32 Decoder.map count
  rw [decode_ofNat "u32" hhigh]
  exact congrArg Except.ok UInt32.ofNat_toNat

theorem decode_byte (n : UInt8) : Decoder.uint8 .value (Source.ofJson (byte n)) = .ok n := by
  have hhigh : (n.toNat : Int) ≤ 255 := by
    have hlt := n.toNat_lt
    omega
  unfold Decoder.uint8 Decoder.map byte
  rw [decode_ofNat "u8" hhigh]
  exact congrArg Except.ok UInt8.ofNat_toNat

theorem matches_ofNat (template : Numeral) {n : Nat} (h : n < 2 ^ 63) :
    Marker.Matches (.number template) (.ofNat n) := by
  have hlow : lowestOf 64 = -9223372036854775808 := by decide
  have hhigh : highestOf 64 = 9223372036854775807 := by decide
  exact .whole template (by omega) (by omega)

theorem matches_count (template : Numeral) (n : UInt32) : Marker.Matches (.number template) (count n) :=
  matches_ofNat template (Nat.lt_trans n.toNat_lt (by decide))

theorem matches_byte (template : Numeral) (n : UInt8) : Marker.Matches (.number template) (byte n) :=
  matches_ofNat template (Nat.lt_trans n.toNat_lt (by decide))

section fields

variable {fs : List (String × Json)} {name : String}

theorem accepts_string {default s : String} (h : fs.lookup name = some (.string s)) :
    (stringField name default).Accepts .value fs s := .field h rfl

theorem accepts_flag {default b : Bool} (h : fs.lookup name = some (.bool b)) :
    (flagField name default).Accepts .value fs b := .field h rfl

theorem accepts_count {default n : UInt32} (h : fs.lookup name = some (count n)) :
    (countField name default).Accepts .value fs n := .field h (decode_count n)

theorem accepts_byte {default n : UInt8} (h : fs.lookup name = some (byte n)) :
    (byteField name default).Accepts .value fs n := .field h (decode_byte n)

end fields

/-! ## Schemas -/

namespace TextBlock

theorem isRestorable : schema.IsRestorable aliases where
  names := fun _ => rfl
  distinct := by decide
  accepts := fun p fs hfind => by
    refine ((((((((Accepts.map (accepts_string (s := p.text) ?_) Props.mk).seq
      (accepts_count (n := p.fontSize) ?_)).seq (accepts_string (s := p.fontFamily) ?_)).seq
      (accepts_count (n := p.fontWeight) ?_)).seq (accepts_flag (b := p.italic) ?_)).seq
      (accepts_string (s := p.color) ?_)).seq (accepts_string (s := p.textAlign) ?_)).seq
      (accepts_byte (n := p.precision) ?_)).seq (accepts_byte (n := p.opacity) ?_)
    all_goals exact hfind _ _ (by simp [schema])
  matched := fun p =>
    .cons ⟨rfl, .string _ _⟩ (.cons ⟨rfl, matches_count _ _⟩ (.cons ⟨rfl, .string _ _⟩
      (.cons ⟨rfl, matches_count _ _⟩ (.cons ⟨rfl, .bool _ _⟩ (.cons ⟨rfl, .string _ _⟩
      (.cons ⟨rfl, .string _ _⟩ (.cons ⟨rfl, matches_byte _ _⟩ (.cons ⟨rfl, matches_byte _ _⟩ .nil))))))))
  texts := by
    refine ((((((((Takes.map ?_ (.string ?_)).seq .any).seq (.string ?_)).seq .any).seq .any).seq
      (.string ?_)).seq (.string ?_)).seq .any).seq .any
    · intro text htext size _ family hfamily weight _ italic _ color hcolor align halign precision _ opacity _
      simp only [schema, List.forall_mem_cons, List.not_mem_nil, false_implies, implies_true, and_true]
      exact ⟨htext, trivial, hfamily, trivial, trivial, hcolor, halign, trivial, trivial⟩
    all_goals decide
  defaultTexts := by decide
  aliased := by decide
  free := by decide

end TextBlock

namespace Clock

theorem decode_format (f : TimeFormat) :
    TimeFormat.decoder .value (Source.ofJson (.string f.name)) = .ok f := by
  cases f <;> rfl

theorem isPortableText_format (f : TimeFormat) : IsPortableText "format" f.name := by
  cases f <;> decide

theorem isRestorable : schema.IsRestorable aliases where
  names := fun _ => rfl
  distinct := by decide
  accepts := fun p fs hfind => by
    refine (((((((Accepts.map (.field (v := .string p.format.name) ?_ (decode_format p.format))
      Props.mk).seq (accepts_count (n := p.timeFontSize) ?_)).seq
      (accepts_count (n := p.dateFontSize) ?_)).seq (accepts_string (s := p.color) ?_)).seq
      (accepts_flag (b := p.italic) ?_)).seq (accepts_string (s := p.fontFamily) ?_)).seq
      (accepts_string (s := p.textAlign) ?_)).seq (accepts_byte (n := p.opacity) ?_)
    all_goals exact hfind _ _ (by simp [schema])
  matched := fun p =>
    .cons ⟨rfl, .string _ _⟩ (.cons ⟨rfl, matches_count _ _⟩ (.cons ⟨rfl, matches_count _ _⟩
      (.cons ⟨rfl, .string _ _⟩ (.cons ⟨rfl, .bool _ _⟩ (.cons ⟨rfl, .string _ _⟩
      (.cons ⟨rfl, .string _ _⟩ (.cons ⟨rfl, matches_byte _ _⟩ .nil)))))))
  texts := by
    refine (((((((Takes.map ?_ .any).seq .any).seq .any).seq (.string ?_)).seq .any).seq
      (.string ?_)).seq (.string ?_)).seq .any
    · intro format _ timeSize _ dateSize _ color hcolor italic _ family hfamily align halign opacity _
      simp only [schema, List.forall_mem_cons, List.not_mem_nil, false_implies, implies_true, and_true]
      exact ⟨isPortableText_format format, trivial, trivial, hcolor, trivial, hfamily, halign, trivial⟩
    all_goals decide
  defaultTexts := by decide
  aliased := by decide
  free := by decide

end Clock

namespace Rectangle

theorem isRestorable : schema.IsRestorable aliases where
  names := fun _ => rfl
  distinct := by decide
  accepts := fun p fs hfind => by
    refine ((((((Accepts.map (accepts_flag (b := p.fill) ?_) Props.mk).seq
      (accepts_count (n := p.borderWidth) ?_)).seq (accepts_string (s := p.color) ?_)).seq
      (accepts_string (s := p.bgColor) ?_)).seq (accepts_string (s := p.borderColor) ?_)).seq
      (accepts_count (n := p.radius) ?_)).seq (accepts_byte (n := p.opacity) ?_)
    all_goals exact hfind _ _ (by simp [schema])
  matched := fun p =>
    .cons ⟨rfl, .bool _ _⟩ (.cons ⟨rfl, matches_count _ _⟩ (.cons ⟨rfl, .string _ _⟩
      (.cons ⟨rfl, .string _ _⟩ (.cons ⟨rfl, .string _ _⟩ (.cons ⟨rfl, matches_count _ _⟩
      (.cons ⟨rfl, matches_byte _ _⟩ .nil))))))
  texts := by
    refine ((((((Takes.map ?_ .any).seq .any).seq (.string ?_)).seq (.string ?_)).seq (.string ?_)).seq
      .any).seq .any
    · intro fill _ width _ color hcolor bgColor hbgColor borderColor hborderColor radius _ opacity _
      simp only [schema, List.forall_mem_cons, List.not_mem_nil, false_implies, implies_true, and_true]
      exact ⟨trivial, trivial, hcolor, hbgColor, hborderColor, trivial, trivial⟩
    all_goals decide
  defaultTexts := by decide
  aliased := by decide
  free := by decide

end Rectangle

namespace Circle

theorem isRestorable : schema.IsRestorable aliases where
  names := fun _ => rfl
  distinct := by decide
  accepts := fun p fs hfind => by
    refine (((((Accepts.map (accepts_flag (b := p.fill) ?_) Props.mk).seq
      (accepts_count (n := p.borderWidth) ?_)).seq (accepts_string (s := p.color) ?_)).seq
      (accepts_string (s := p.bgColor) ?_)).seq (accepts_string (s := p.borderColor) ?_)).seq
      (accepts_byte (n := p.opacity) ?_)
    all_goals exact hfind _ _ (by simp [schema])
  matched := fun p =>
    .cons ⟨rfl, .bool _ _⟩ (.cons ⟨rfl, matches_count _ _⟩ (.cons ⟨rfl, .string _ _⟩
      (.cons ⟨rfl, .string _ _⟩ (.cons ⟨rfl, .string _ _⟩ (.cons ⟨rfl, matches_byte _ _⟩ .nil)))))
  texts := by
    refine (((((Takes.map ?_ .any).seq .any).seq (.string ?_)).seq (.string ?_)).seq (.string ?_)).seq .any
    · intro fill _ width _ color hcolor bgColor hbgColor borderColor hborderColor opacity _
      simp only [schema, List.forall_mem_cons, List.not_mem_nil, false_implies, implies_true, and_true]
      exact ⟨trivial, trivial, hcolor, hbgColor, hborderColor, trivial⟩
    all_goals decide
  defaultTexts := by decide
  aliased := by decide
  free := by decide

end Circle

namespace Line

theorem decode_orientation (o : Orientation) :
    Orientation.decoder .value (Source.ofJson (.string o.name)) = .ok o := by
  cases o <;> rfl

theorem isPortableText_orientation (o : Orientation) : IsPortableText "orientation" o.name := by
  cases o <;> decide

theorem isRestorable : schema.IsRestorable aliases where
  names := fun _ => rfl
  distinct := by decide
  accepts := fun p fs hfind => by
    refine ((Accepts.map (accepts_count (n := p.strokeWidth) ?_) Props.mk).seq
      (accepts_string (s := p.color) ?_)).seq
      (.field (v := .string p.orientation.name) ?_ (decode_orientation p.orientation))
    all_goals exact hfind _ _ (by simp [schema])
  matched := fun p =>
    .cons ⟨rfl, matches_count _ _⟩ (.cons ⟨rfl, .string _ _⟩ (.cons ⟨rfl, .string _ _⟩ .nil))
  texts := by
    refine ((Takes.map ?_ .any).seq (.string ?_)).seq .any
    · intro width _ color hcolor orientation _
      simp only [schema, List.forall_mem_cons, List.not_mem_nil, false_implies, implies_true, and_true]
      exact ⟨trivial, hcolor, isPortableText_orientation orientation⟩
    all_goals decide
  defaultTexts := by decide
  aliased := by decide
  free := by decide

end Line

namespace Chart

theorem isRestorable : schema.IsRestorable [] where
  names := fun _ => rfl
  distinct := by decide
  accepts := fun p fs hfind => by
    refine ((((Accepts.map (accepts_string (s := p.style) ?_) Props.mk).seq
      (accepts_string (s := p.duration) ?_)).seq (accepts_string (s := p.color) ?_)).seq
      (accepts_count (n := p.lineThickness) ?_)).seq (accepts_flag (b := p.border) ?_)
    all_goals exact hfind _ _ (by simp [schema])
  matched := fun p =>
    .cons ⟨rfl, .string _ _⟩ (.cons ⟨rfl, .string _ _⟩ (.cons ⟨rfl, .string _ _⟩
      (.cons ⟨rfl, matches_count _ _⟩ (.cons ⟨rfl, .bool _ _⟩ .nil))))
  texts := by
    refine ((((Takes.map ?_ (.string ?_)).seq (.string ?_)).seq (.string ?_)).seq .any).seq .any
    · intro style hstyle duration hduration color hcolor thickness _ border _
      simp only [schema, List.forall_mem_cons, List.not_mem_nil, false_implies, implies_true, and_true]
      exact ⟨hstyle, hduration, hcolor, trivial, trivial⟩
    all_goals decide
  defaultTexts := by decide
  aliased := by decide
  free := by decide

end Chart

end Dashboard.Kind
