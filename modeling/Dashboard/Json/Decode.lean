import Dashboard.Json.Source
import Dashboard.Json.Print
import Dashboard.Text.Quoted
import Dashboard.Text.Ascii
/-!
# Decoding JSON into typed data

A decoder walks a source in the order of its text and reports the first thing that does not fit.
The fields of a record are described once, as a value of `Record`; from it come the readers of an
object with named members, of a list with the fields in order, and of an object that leaves the
members it does not know to somebody else. A member is checked when its turn in the text comes, a
missing one is noticed at the end, in the order of the fields.
-/

namespace Dashboard.Json

open Number Text

/-- The kind of value that a decoder met, for its message. -/
inductive Found where
  | null
  | bool (value : Bool)
  | number (value : Numeral)
  | text (value : String)
  | list
  | object

inductive DecodeError where
  | fault (f : Fault)
  | unexpected (found : Found) (expected : String)
  | outOfRange (value : Int) (expected : String)
  | missing (field : String)
  | duplicate (field : String)
  | unknownVariant (name : String) (known : List String)
  | wrongLength (length : Nat) (expected : String)
  | notSingleMember

def Found.describe : Found → String
  | .null => "null"
  | .bool b => "boolean `" ++ (if b then "true" else "false") ++ "`"
  | .number (.whole i) => "integer `" ++ intText i ++ "`"
  | .number (.real x) => "floating point `" ++ x.documentText ++ "`"
  | .text s => "string " ++ quoted s
  | .list => "sequence"
  | .object => "map"

def tick (s : String) : String := "`" ++ s ++ "`"

def alternatives : List String → String
  | [] => "there are no variants"
  | [a] => "expected " ++ tick a
  | [a, b] => "expected " ++ tick a ++ " or " ++ tick b
  | names => "expected one of " ++ joined ", " (names.map tick)

def DecodeError.message : DecodeError → String
  | .fault f => f.message
  | .unexpected found expected => "invalid type: " ++ found.describe ++ ", expected " ++ expected
  | .outOfRange i expected => "invalid value: integer " ++ tick (intText i) ++ ", expected " ++ expected
  | .missing field => "missing field " ++ tick field
  | .duplicate field => "duplicate field " ++ tick field
  | .unknownVariant name known => "unknown variant " ++ tick name ++ ", " ++ alternatives known
  | .wrongLength n expected => "invalid length " ++ natText n ++ ", expected " ++ expected
  | .notSingleMember => "invalid value: map, expected map with a single key"

/-- Where a source comes from: a text, in which so many containers may still be opened, or a value
that has been read before. -/
inductive Origin where
  | text (room : Nat)
  | value

/-- A text may nest its containers 127 deep. -/
def Origin.ofText : Origin := .text 128

abbrev Decoded := Except DecodeError

abbrev Decoder (α : Type) := Origin → Source → Decoded α

namespace Origin

def enter : Origin → Decoded Origin
  | .value => .ok .value
  | .text room => if room ≤ 1 then .error (.fault .tooDeep) else .ok (.text (room - 1))

def isText : Origin → Bool
  | .text _ => true
  | .value => false

end Origin

def orFault (α : Type) : Except Fault α → Decoded α
  | .ok a => .ok a
  | .error f => .error (.fault f)

def atEnd : Option Fault → Decoded Unit
  | none => .ok ()
  | some f => .error (.fault f)

namespace Source

/-- What stands here, for a message; or the fault that stands here. -/
def found : Source → Decoded Found
  | .null => .ok .null
  | .bool b => .ok (.bool b)
  | .number n => (orFault _ n).map .number
  | .text s => (orFault _ s).map .text
  | .list .. => .ok .list
  | .object .. => .ok .object
  | .broken b => .error (.fault b.reading)

def mismatch {α : Type} (s : Source) (expected : String) : Decoded α := do
  let f ← s.found
  .error (.unexpected f expected)

mutual

def toJson (o : Origin) : Source → Decoded Json
  | .null => .ok .null
  | .bool b => .ok (.bool b)
  | .number n => (orFault _ n).map .number
  | .text s => (orFault _ s).map .string
  | .list items ending => do
    let inner ← o.enter
    let vs ← toItems inner items
    atEnd ending.reading?
    return .array vs
  | .object members ending => do
    let inner ← o.enter
    let fs ← toFields inner members
    atEnd ending.reading?
    return .object (Table.ofList fs)
  | .broken b => .error (.fault b.reading)

def toItems (o : Origin) : List Source → Decoded (List Json)
  | [] => .ok []
  | s :: ss => do
    let v ← toJson o s
    let vs ← toItems o ss
    return v :: vs

def toFields (o : Origin) : List (Except Fault String × Source) → Decoded (List (String × Json))
  | [] => .ok []
  | (key, s) :: ms => do
    let k ← orFault _ key
    let v ← toJson o s
    let fs ← toFields o ms
    return (k, v) :: fs

end

mutual

/-- Passes over a value that nobody asks for. -/
def skip : Source → Decoded Unit
  | .list items ending => do
    skipItems items
    atEnd ending.skipping?
  | .object members ending => do
    skipMembers members
    atEnd ending.skipping?
  | .broken b => .error (.fault b.skipping)
  | _ => .ok ()

def skipItems : List Source → Decoded Unit
  | [] => .ok ()
  | s :: ss => do
    skip s
    skipItems ss

def skipMembers : List (Except Fault String × Source) → Decoded Unit
  | [] => .ok ()
  | (_, s) :: ms => do
    skip s
    skipMembers ms

end

end Source

namespace Decoder

variable {α β : Type}

def map (f : α → β) (d : Decoder α) : Decoder β := fun o s => (d o s).map f

def json : Decoder Json := fun o s => s.toJson o

def string : Decoder String
  | _, .text s => orFault _ s
  | _, s => s.mismatch "a string"

def bool : Decoder Bool
  | _, .bool b => .ok b
  | _, s => s.mismatch "a boolean"

/-- A whole number within a range, named for the message. -/
def integer (name : String) (lowest highest : Int) : Decoder Int
  | _, .number n => do
    match ← orFault _ n with
    | .whole i => if lowest ≤ i && i ≤ highest then .ok i else .error (.outOfRange i name)
    | .real x => .error (.unexpected (.number (.real x)) name)
  | _, s => s.mismatch name

def int32 : Decoder Int32 := map Int32.ofInt (integer "i32" (lowestOf 32) (highestOf 32))

def uint8 : Decoder UInt8 := map (fun i => UInt8.ofNat i.toNat) (integer "u8" 0 255)

def uint32 : Decoder UInt32 := map (fun i => UInt32.ofNat i.toNat) (integer "u32" 0 (twoTo 32 - 1 : Nat))

def index : Decoder Nat := map Int.toNat (integer "usize" 0 (twoTo 64 - 1 : Nat))

def real : Decoder Binary64
  | _, .number n => (orFault _ n).map Numeral.toBinary64
  | _, s => s.mismatch "f64"

def nullable (d : Decoder α) : Decoder (Option α)
  | _, .null => .ok none
  | o, s => (d o s).map some

def itemsWith (d : Decoder α) (o : Origin) : List Source → Decoded (List α)
  | [] => .ok []
  | s :: ss => do
    let a ← d o s
    let as ← itemsWith d o ss
    return a :: as

def list (d : Decoder α) : Decoder (List α)
  | o, .list items ending => do
    let inner ← o.enter
    let as ← itemsWith d inner items
    atEnd ending.reading?
    return as
  | _, s => s.mismatch "a sequence"

/-- An object with any members; of two under one key the later counts. -/
def bag : Decoder Bag
  | o, .object members ending => do
    let inner ← o.enter
    let fs ← Source.toFields inner members
    atEnd ending.reading?
    return Table.ofList fs
  | _, s => s.mismatch "a map"

def unit : Decoder Unit
  | _, .null => .ok ()
  | _, s => s.mismatch "unit"

def variantNamed (choices : List (String × α)) (name : String) : Decoded α :=
  match choices.lookup name with
  | some a => .ok a
  | none => .error (.unknownVariant name (choices.map Prod.fst))

/-- The name of a variant, in the place of a value. -/
def variantName (choices : List (String × α)) : Decoder α
  | _, .text s => do variantNamed choices (← orFault _ s)
  | _, s => s.mismatch "variant identifier"

/-- The one member of an object that names a variant, read from a text. -/
def variantMember (choices : List (String × α)) (o : Origin) :
    List (Except Fault String × Source) → ObjectEnd → Decoded α
  | [], ending => do
    atEnd ending.reading?
    .error (.fault .expectedValue)
  | (key, s) :: more, ending => do
    let a ← variantNamed choices (← orFault _ key)
    unit o s
    match more, ending with
    | [], .closed => .ok a
    | [], .ended => .error (.fault .endInObject)
    | _, _ => .error (.fault .expectedValue)

/-- A choice between named variants: a string, or an object whose only member is a name with null. -/
def choice (choices : List (String × α)) : Decoder α
  | _, .text s => do variantNamed choices (← orFault _ s)
  | .text room, .object members ending => do
    let inner ← (Origin.text room).enter
    variantMember choices inner members ending
  | .text _, .broken b => .error (.fault b.choosing)
  | .text _, _ => .error (.fault .expectedValue)
  | .value, .object [(key, s)] _ => do
    let a ← variantNamed choices (← orFault _ key)
    unit .value s
    return a
  | .value, .object _ _ => .error .notSingleMember
  | .value, s => s.mismatch "string or map"

end Decoder

/-! ## Records -/

/-- How the fields of a record are found while it is built. -/
structure Access where
  origin : Origin
  find? : String → Option Source
  absent : String → DecodeError
  named : Bool

structure FieldCheck where
  name : String
  check : Decoder Unit

structure Record (α : Type) where
  fields : List FieldCheck
  build : Access → Decoded α

namespace Record

variable {α β : Type}

protected def pure (a : α) : Record α := ⟨[], fun _ => .ok a⟩

protected def seq (f : Record (α → β)) (a : Record α) : Record β where
  fields := f.fields ++ a.fields
  build access := do
    let g ← f.build access
    let x ← a.build access
    return g x

instance : Pure Record := ⟨Record.pure⟩

instance : Seq Record := ⟨fun f a => Record.seq f (a ())⟩

instance : Functor Record where
  map f r := ⟨r.fields, fun access => (r.build access).map f⟩

def field (name : String) (d : Decoder α) (whenAbsent : Access → Decoded α) : Record α where
  fields := [⟨name, fun o s => (d o s).map fun _ => ()⟩]
  build access :=
    match access.find? name with
    | some s => d access.origin s
    | none => whenAbsent access

def required (name : String) (d : Decoder α) : Record α :=
  field name d fun access => .error (access.absent name)

def withDefault (name : String) (d : Decoder α) (default : α) : Record α :=
  field name d fun _ => .ok default

def optional (name : String) (d : Decoder α) : Record (Option α) :=
  withDefault name (Decoder.nullable d) none

/-- A field that may be left out of an object but not out of a list. -/
def nullableField (name : String) (d : Decoder α) : Record (Option α) :=
  field name (Decoder.nullable d) fun access =>
    if access.named then .ok none else .error (access.absent name)

def names (r : Record α) : List String := r.fields.map FieldCheck.name

def check? (r : Record α) (name : String) : Option (Decoder Unit) :=
  (r.fields.find? fun f => f.name == name).map FieldCheck.check

def findMember (members : Source.Members) (name : String) : Option Source :=
  match members with
  | [] => none
  | (.ok k, s) :: ms => if k = name then some s else findMember ms name
  | (.error _, _) :: ms => findMember ms name

/-- Walks the members of an object. Known ones are checked; the others go to `other`, whose answers
are collected. -/
def walk (r : Record α) (o : Origin) (other : String → Source → Decoded β) :
    List String → Source.Members → Decoded (List β)
  | _, [] => .ok []
  | seen, (key, s) :: ms => do
    let k ← orFault _ key
    match r.check? k with
    | some check =>
      if seen.contains k then .error (.duplicate k)
      else do
        check o s
        walk r o other (k :: seen) ms
    | none => do
      let b ← other k s
      let bs ← walk r o other seen ms
      return b :: bs

def ofMembers (r : Record α) (o : Origin) (members : Source.Members) : Decoded α :=
  r.build ⟨o, findMember members, .missing, true⟩

def checkItems (o : Origin) : List FieldCheck → List Source → Decoded Unit
  | f :: fs, s :: ss => do
    f.check o s
    checkItems o fs ss
  | _, _ => .ok ()

def findItem : List FieldCheck → List Source → String → Option Source
  | f :: fs, s :: ss, name => if f.name = name then some s else findItem fs ss name
  | _, _, _ => none

def lengthFault (r : Record α) (title name : String) : DecodeError :=
  let i := r.names.idxOf name
  .wrongLength i (title ++ " with " ++ natText r.fields.length ++
    (if r.fields.length = 1 then " element" else " elements"))

/-- What is wrong with a list in a text that goes on after the last field, or does not end. -/
def overflowFault? (items : List Source) (count : Nat) : ListEnd → Option Fault
  | .closed => if items.length ≤ count then none else some .trailingCharacters
  | .ended => if items.length ≤ count then some .endInList else some .trailingCharacters
  | .trailingComma => if items.length ≤ count then some .trailingComma else some .trailingCharacters
  | .unseparated => some .trailingCharacters

/-- The fields of a record as the items of a list. -/
def ofItems (r : Record α) (title : String) (o : Origin) (items : List Source) (ending : ListEnd)
    (surplus : Nat → DecodeError) : Decoded α := do
  checkItems o r.fields items
  if items.length < r.fields.length then atEnd ending.reading?
  let a ← r.build ⟨o, findItem r.fields items, r.lengthFault title, false⟩
  if o.isText then atEnd (overflowFault? items r.fields.length ending)
  else if r.fields.length < items.length then .error (surplus items.length)
  return a

/-- A record as an object or as a list. Members that it does not know are passed over. -/
def closed (title : String) (r : Record α) : Decoder α
  | o, .object members ending => do
    let inner ← o.enter
    let _ ← r.walk inner (fun _ s => s.skip) [] members
    atEnd ending.reading?
    r.ofMembers inner members
  | o, .list items ending => do
    let inner ← o.enter
    r.ofItems title inner items ending fun n => .wrongLength n "fewer elements in array"
  | _, s => s.mismatch title

/-- A record as an object, together with the members that it does not know. -/
def openEnded (title : String) (r : Record α) : Decoder (α × List (String × Json))
  | o, .object members ending => do
    let inner ← o.enter
    let rest ← r.walk inner (fun k s => (s.toJson inner).map fun v => (k, v)) [] members
    atEnd ending.reading?
    let a ← r.ofMembers inner members
    return (a, rest)
  | _, s => s.mismatch title

/-- A record among the members that another one left over. -/
def ofRest (r : Record α) (rest : List (String × Json)) : Decoded α := do
  let members := Source.ofFields rest
  let _ ← r.walk .value (fun _ _ => .ok ()) [] members
  r.ofMembers .value members

end Record

/-! ## Whole texts and values -/

def ofJson {α : Type} (d : Decoder α) (v : Json) : Decoded α := d .value (Source.ofJson v)

def ofText {α : Type} (d : Decoder α) (s : String) : Decoded α := do
  let (source, more) := Source.ofText s
  let a ← d .ofText source
  if more then .error (.fault .trailingCharacters)
  return a

end Dashboard.Json
