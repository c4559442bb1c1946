import Dashboard.Json.Token
/-!
# JSON texts as far as they can be read

A source keeps the members of its objects in the order of the text, repeated keys included, and
has a fault where the text stops being JSON. A decoder that walks a source in order meets the
faults of a text exactly where a reader of the text would.
-/

namespace Dashboard.Json

inductive ListEnd where
  | closed | ended | unseparated | trailingComma
deriving DecidableEq, Repr

inductive ObjectEnd where
  | closed | ended | endedAfterComma | unseparated | trailingComma | keyNotText
  | keyBroken (fault : Broken)
deriving DecidableEq, Repr

inductive Source where
  | null
  | bool (value : Bool)
  | number (value : Except Fault Numeral)
  | text (value : Except Fault String)
  | list (items : List Source) (ending : ListEnd)
  | object (members : List (Except Fault String × Source)) (ending : ObjectEnd)
  | broken (fault : Broken)

instance : Inhabited Source := ⟨.null⟩

def ListEnd.reading? : ListEnd → Option Fault
  | .closed => none
  | .ended => some .endInList
  | .unseparated => some .expectedListComma
  | .trailingComma => some .trailingComma

def ListEnd.skipping? : ListEnd → Option Fault
  | .trailingComma => some .expectedValue
  | e => e.reading?

def ObjectEnd.reading? : ObjectEnd → Option Fault
  | .closed => none
  | .ended => some .endInObject
  | .endedAfterComma => some .endInValue
  | .unseparated => some .expectedObjectComma
  | .trailingComma => some .trailingComma
  | .keyNotText => some .keyNotText
  | .keyBroken b => some b.reading

def ObjectEnd.skipping? : ObjectEnd → Option Fault
  | .endedAfterComma => some .endInObject
  | .trailingComma => some .keyNotText
  | .keyBroken b => some b.skipping
  | e => e.reading?

namespace Source

def expectedValue : Source := .broken { reading := .expectedValue }

def endOfText : Source := .broken { reading := .endInValue }

def addItem (s : Source) : List Source × ListEnd × List Token → List Source × ListEnd × List Token
  | (items, rest) => (s :: items, rest)

abbrev Members := List (Except Fault String × Source)

def addMember (key : Except Fault String) (s : Source) :
    Members × ObjectEnd × List Token → Members × ObjectEnd × List Token
  | (members, rest) => ((key, s) :: members, rest)

mutual

/-- The first value of a token list, and the tokens after it. After a fault there are none. -/
def value : Nat → List Token → Source × List Token
  | 0, ts => (endOfText, ts)
  | _, [] => (endOfText, [])
  | n + 1, t :: ts =>
    match t with
    | .null => (.null, ts)
    | .bool b => (.bool b, ts)
    | .number v => (.number v, ts)
    | .text v => (.text v, ts)
    | .openList =>
      match ts with
      | .closeList :: rest => (.list [] .closed, rest)
      | [] => (.list [] .ended, [])
      | _ => let (items, ending, rest) := itemsFrom n ts; (.list items ending, rest)
    | .openObject =>
      match ts with
      | .closeObject :: rest => (.object [] .closed, rest)
      | [] => (.object [] .ended, [])
      | _ => let (members, ending, rest) := membersFrom n ts; (.object members ending, rest)
    | .broken b _ => (.broken b, [])
    | _ => (expectedValue, [])

/-- The items of a list from the next one on. -/
def itemsFrom : Nat → List Token → List Source × ListEnd × List Token
  | 0, ts => ([], .ended, ts)
  | n + 1, ts =>
    let (v, rest) := value n ts
    match rest with
    | .comma :: .closeList :: _ => ([v], .trailingComma, [])
    | .comma :: rest => addItem v (itemsFrom n rest)
    | .closeList :: rest => ([v], .closed, rest)
    | [] => ([v], .ended, [])
    | _ => ([v], .unseparated, [])

/-- The members of an object from the next key on. -/
def membersFrom : Nat → List Token → Members × ObjectEnd × List Token
  | 0, ts => ([], .ended, ts)
  | _, [] => ([], .endedAfterComma, [])
  | n + 1, t :: ts =>
    match t with
    | .text key =>
      match ts with
      | .colon :: ts =>
        let (v, rest) := value n ts
        match rest with
        | .comma :: .closeObject :: _ => ([(key, v)], .trailingComma, [])
        | .comma :: rest => addMember key v (membersFrom n rest)
        | .closeObject :: rest => ([(key, v)], .closed, rest)
        | [] => ([(key, v)], .ended, [])
        | _ => ([(key, v)], .unseparated, [])
      | [] => ([(key, .broken { reading := .endInObject })], .ended, [])
      | _ => ([(key, .broken { reading := .expectedColon })], .ended, [])
    | .broken b true => ([], .keyBroken b, [])
    | _ => ([], .keyNotText, [])

end

/-- A text as a source, and whether anything but space follows its value. -/
def ofText (s : String) : Source × Bool :=
  let ts := tokens s.toList
  let (v, rest) := value (2 * ts.length + 2) ts
  (v, !rest.isEmpty)

mutual

def ofJson : Json → Source
  | .null => .null
  | .bool b => .bool b
  | .number n => .number (.ok n)
  | .string s => .text (.ok s)
  | .array vs => .list (ofItems vs) .closed
  | .object fs => .object (ofFields fs) .closed

def ofItems : List Json → List Source
  | [] => []
  | v :: vs => ofJson v :: ofItems vs

def ofFields : List (String × Json) → Members
  | [] => []
  | (k, v) :: fs => (.ok k, ofJson v) :: ofFields fs

end

end Source

end Dashboard.Json
