import Dashboard.Json.Basic
import Dashboard.Json.Fault
/-!
# The tokens of a JSON text

A text is cut into tokens up to the first place that no token fits. A text or a number may be well
formed and still have no value, such as a number past the largest one; then its token carries the
fault.

The value of a number with a fraction or an exponent is formed in two steps, each rounded: the
digits that fit 64 bits are taken as a whole number, which is then scaled by a power of ten.
-/

namespace Dashboard.Json

open Number

inductive Token where
  | openList | closeList | openObject | closeObject | colon | comma
  | null
  | bool (value : Bool)
  | number (value : Except Fault Numeral)
  | text (value : Except Fault String)
  | broken (fault : Broken) (inText : Bool)
  | stray

def isSpace (c : Char) : Bool := c == ' ' || c == '\n' || c == '\t' || c == '\r'

/-! ## Texts -/

def hexValue? (c : Char) : Option Nat :=
  let n := c.toNat
  if 48 ≤ n && n ≤ 57 then some (n - 48)
  else if 97 ≤ n && n ≤ 102 then some (n - 87)
  else if 65 ≤ n && n ≤ 70 then some (n - 55)
  else none

def hexQuad? (a b c d : Char) : Option Nat := do
  let a ← hexValue? a
  let b ← hexValue? b
  let c ← hexValue? c
  let d ← hexValue? d
  return ((a * 16 + b) * 16 + c) * 16 + d

def byteCount (cs : List Char) : Nat := total (cs.map fun c => c.utf8Size)

/-- What is wrong with an escape that has no four hexadecimal digits. -/
def hexFault (cs : List Char) : Fault :=
  if byteCount (cs.take 4) < 4 then .endInText else .invalidEscape

def simpleEscape? (c : Char) : Option Char :=
  if c = '"' || c = '\\' || c = '/' then some c
  else if c = 'b' then some '\x08'
  else if c = 'f' then some '\x0c'
  else if c = 'n' then some '\n'
  else if c = 'r' then some '\r'
  else if c = 't' then some '\t'
  else none

def isHighSurrogate (n : Nat) : Bool := 0xD800 ≤ n && n ≤ 0xDBFF

def isLowSurrogate (n : Nat) : Bool := 0xDC00 ≤ n && n ≤ 0xDFFF

def surrogatePair (high low : Nat) : Char :=
  Char.ofNat ((high - 0xD800) * 0x400 + (low - 0xDC00) + 0x10000)

/-- The rest of a text after its opening quote. -/
inductive TextScan where
  | closed (value : Except Fault (List Char)) (rest : List Char)
  | broken (fault : Broken)

namespace TextScan

def push (c : Char) : TextScan → TextScan
  | .closed (.ok cs) rest => .closed (.ok (c :: cs)) rest
  | s => s

/-- A text whose value fails here; whoever skips it goes on. -/
def fail (f : Fault) : TextScan → TextScan
  | .closed _ rest => .closed (.error f) rest
  | .broken b => .broken { b with reading := f, choosing := f }

end TextScan

/-- What follows a high surrogate when no low surrogate does. -/
def pairFault : List Char → Fault
  | [] => .endInText
  | ['\\'] => .endInText
  | '\\' :: 'u' :: a :: b :: c :: d :: _ =>
    match hexQuad? a b c d with
    | some _ => .loneSurrogate
    | none => hexFault [a, b, c, d]
  | '\\' :: 'u' :: cs => hexFault cs
  | _ => .cutSurrogate

def scanText : List Char → TextScan
  | [] => .broken { reading := .endInText }
  | '"' :: cs => .closed (.ok []) cs
  | '\\' :: 'u' :: a :: b :: c :: d :: '\\' :: 'u' :: e :: f :: g :: h :: cs =>
    match hexQuad? a b c d, hexQuad? e f g h with
    | none, _ => .broken { reading := hexFault [a, b, c, d] }
    | some n, low =>
      if isHighSurrogate n then
        match low with
        | some m =>
          if isLowSurrogate m then (scanText cs).push (surrogatePair n m)
          else (scanText ('\\' :: 'u' :: e :: f :: g :: h :: cs)).fail .loneSurrogate
        | none =>
          (scanText ('\\' :: 'u' :: e :: f :: g :: h :: cs)).fail (hexFault [e, f, g, h])
      else if isLowSurrogate n then
        (scanText ('\\' :: 'u' :: e :: f :: g :: h :: cs)).fail .loneSurrogate
      else (scanText ('\\' :: 'u' :: e :: f :: g :: h :: cs)).push (Char.ofNat n)
  | '\\' :: 'u' :: a :: b :: c :: d :: cs =>
    match hexQuad? a b c d with
    | none => .broken { reading := hexFault [a, b, c, d] }
    | some n =>
      if isHighSurrogate n then (scanText cs).fail (pairFault cs)
      else if isLowSurrogate n then (scanText cs).fail .loneSurrogate
      else (scanText cs).push (Char.ofNat n)
  | '\\' :: c :: cs =>
    if c = 'u' then .broken { reading := hexFault cs }
    else match simpleEscape? c with
      | some d => (scanText cs).push d
      | none => .broken { reading := .invalidEscape }
  | c :: cs =>
    if c = '\\' then .broken { reading := .endInText }
    else if c.toNat < 32 then .broken { reading := .controlCharacter }
    else (scanText cs).push c

/-! ## Numbers -/

/-- The digits of a number: before the point, after it if there is one, and of the exponent. -/
structure NumberParts where
  negative : Bool
  whole : List Char
  fraction : Option (List Char)
  exponent : Option (Bool × List Char)

def largestWhole : Nat := twoTo 64 - 1

/-- Takes digits into a number as long as it fits 64 bits, and says how many were taken. -/
def absorb (n taken : Nat) : List Char → Nat × Nat
  | [] => (n, taken)
  | c :: cs =>
    let m := 10 * n + digitValue c
    if largestWhole < m then (n, taken) else absorb m (taken + 1) cs

def powerOfTen (k : Nat) : Binary64 := Decimal.toBinary64 false ⟨1, k⟩

/-- Scales by a power of ten, one rounding a step; each step reaches 308 decimal places. -/
def scaleByTen : Nat → Binary64 → Int → Except Fault Binary64
  | 0, _, _ => .ok (.zero false)
  | steps + 1, x, e =>
    if e.natAbs ≤ 308 then
      if 0 ≤ e then
        let y := x.mul (powerOfTen e.toNat)
        if y.isFinite then .ok y else .error .numberOutOfRange
      else .ok (x.div (powerOfTen e.natAbs))
    else if x.isZero then .ok x
    else if 0 ≤ e then .error .numberOutOfRange
    else scaleByTen steps (x.div (powerOfTen 308)) (e + 308)

def NumberParts.real (p : NumberParts) : Except Fault Numeral :=
  let (n, taken) := absorb 0 0 p.whole
  let (m, places) := absorb n 0 (p.fraction.getD [])
  let shift : Int := match p.exponent with
    | none => 0
    | some (negative, ds) => if negative then -(digitsValue ds : Int) else digitsValue ds
  let exponent := (p.whole.length - taken : Nat) - (places : Int) + shift
  (scaleByTen 4 (.ofNat m) exponent).map fun x => .real (if p.negative then x.negate else x)

def NumberParts.value (p : NumberParts) : Except Fault Numeral :=
  let n := digitsValue p.whole
  if p.fraction.isNone && p.exponent.isNone && n ≤ largestWhole then
    if !p.negative then .ok (.whole n)
    else if n = 0 || twoTo 63 < n then .ok (.real (Binary64.ofNat n).negate)
    else .ok (.whole (-(n : Int)))
  else p.real

/-- A number that the text ends in the middle of. -/
def cutNumber : Broken :=
  { reading := .endInValue, skipping := .invalidNumber, choosing := .expectedValue }

def badNumber : Broken := { reading := .invalidNumber, choosing := .expectedValue }

def scanExponent (p : NumberParts) : List Char → Except Broken (NumberParts × List Char)
  | c :: cs =>
    if c = 'e' || c = 'E' then
      let (negative, cs) := match cs with
        | '+' :: r => (false, r)
        | '-' :: r => (true, r)
        | r => (false, r)
      match cs with
      | [] => .error cutNumber
      | d :: _ =>
        if d.isDigit then
          .ok ({ p with exponent := some (negative, cs.takeWhile Char.isDigit) },
            cs.dropWhile Char.isDigit)
        else .error badNumber
    else .ok (p, c :: cs)
  | [] => .ok (p, [])

def scanFraction (p : NumberParts) : List Char → Except Broken (NumberParts × List Char)
  | '.' :: [] => .error cutNumber
  | '.' :: d :: cs =>
    if d.isDigit then
      scanExponent { p with fraction := some ((d :: cs).takeWhile Char.isDigit) }
        ((d :: cs).dropWhile Char.isDigit)
    else .error badNumber
  | cs => scanExponent p cs

def scanNumber (negative : Bool) (cs : List Char) : Except Broken (NumberParts × List Char) :=
  let ds := cs.takeWhile Char.isDigit
  match cs, ds with
  | [], _ => .error cutNumber
  | _, [] => .error badNumber
  | _, '0' :: _ :: _ => .error badNumber
  | _, ds => scanFraction ⟨negative, ds, none, none⟩ (cs.dropWhile Char.isDigit)

/-! ## Words and the whole text -/

/-- Takes the rest of a word whose first letter has been read. -/
def scanWord : List Char → List Char → Except Broken (List Char)
  | [], cs => .ok cs
  | _, [] => .error { reading := .endInValue, choosing := .expectedValue }
  | w :: ws, c :: cs =>
    if w = c then scanWord ws cs
    else .error { reading := .expectedIdent, choosing := .expectedValue }

def wordToken (t : Token) (next : List Char → List Token) :
    Except Broken (List Char) → List Token
  | .ok rest => t :: next rest
  | .error b => [.broken b false]

def numberToken (next : List Char → List Token) :
    Except Broken (NumberParts × List Char) → List Token
  | .ok (p, rest) => .number p.value :: next rest
  | .error b => [.broken b false]

def tokensWithin : Nat → List Char → List Token
  | 0, _ => []
  | _, [] => []
  | n + 1, c :: cs =>
    if isSpace c then tokensWithin n cs
    else if c = '[' then .openList :: tokensWithin n cs
    else if c = ']' then .closeList :: tokensWithin n cs
    else if c = '{' then .openObject :: tokensWithin n cs
    else if c = '}' then .closeObject :: tokensWithin n cs
    else if c = ':' then .colon :: tokensWithin n cs
    else if c = ',' then .comma :: tokensWithin n cs
    else if c = 'n' then wordToken .null (tokensWithin n) (scanWord ['u', 'l', 'l'] cs)
    else if c = 't' then wordToken (.bool true) (tokensWithin n) (scanWord ['r', 'u', 'e'] cs)
    else if c = 'f' then
      wordToken (.bool false) (tokensWithin n) (scanWord ['a', 'l', 's', 'e'] cs)
    else if c = '-' then numberToken (tokensWithin n) (scanNumber true cs)
    else if c.isDigit then numberToken (tokensWithin n) (scanNumber false (c :: cs))
    else if c = '"' then
      match scanText cs with
      | .closed value rest => .text (value.map String.ofList) :: tokensWithin n rest
      | .broken b => [.broken b true]
    else [.stray]

def tokens (cs : List Char) : List Token := tokensWithin (cs.length + 1) cs

end Dashboard.Json
