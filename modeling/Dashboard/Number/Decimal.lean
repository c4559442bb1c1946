import Dashboard.Number.Binary64
import Dashboard.Number.Integer
/-!
# Reading decimal numbers

A decimal numeral has an optional sign, digits with at most one point among them and an optional
exponent of ten. It denotes the floating point number nearest to its value. The words `inf`,
`infinity` and `nan` are read in any case.
-/

namespace Dashboard.Number

/-- A numeral without its sign: `digits * 10 ^ exponent`. -/
structure Decimal where
  digits : Nat
  exponent : Int
deriving DecidableEq, Repr

namespace Decimal

/-- The number nearest to a decimal. Exponents beyond every finite value are settled at once. -/
def toBinary64 (negative : Bool) (d : Decimal) : Binary64 :=
  let size : Int := (d.digits.log2 : Int) / 3 + 1 + d.exponent
  if d.digits = 0 then .zero negative
  else if 400 < d.exponent then .infinite negative
  else if size < -400 then .zero negative
  else if 0 ≤ d.exponent then .ofQuotient negative (d.digits * tenTo d.exponent.toNat) 1
  else .ofQuotient negative d.digits (tenTo (-d.exponent).toNat)

def exponentOf? : List Char → Option Int
  | '+' :: ds => (natOfDigits? ds).map Int.ofNat
  | '-' :: ds => (natOfDigits? ds).map fun n => -(n : Int)
  | ds => (natOfDigits? ds).map Int.ofNat

/-- The numeral that a text spells, if it spells one. -/
def read? (cs : List Char) : Option Decimal :=
  let whole := cs.takeWhile Char.isDigit
  let rest := cs.dropWhile Char.isDigit
  let (fraction, rest) := match rest with
    | '.' :: r => (r.takeWhile Char.isDigit, r.dropWhile Char.isDigit)
    | r => ([], r)
  if whole = [] && fraction = [] then none
  else
    let mantissa := digitsValue (whole ++ fraction)
    match rest with
    | [] => some ⟨mantissa, -(fraction.length : Int)⟩
    | c :: r =>
      if c = 'e' || c = 'E' then
        (exponentOf? r).map fun e => ⟨mantissa, e - fraction.length⟩
      else none

end Decimal

namespace Binary64

def ofWord? (negative : Bool) (cs : List Char) : Option Binary64 :=
  let word := String.ofList (cs.map Char.toLower)
  if word = "inf" || word = "infinity" then some (.infinite negative)
  else if word = "nan" then some .nan
  else none

def readUnsigned? (negative : Bool) (cs : List Char) : Option Binary64 :=
  match Decimal.read? cs with
  | some d => some (d.toBinary64 negative)
  | none => ofWord? negative cs

def read? : List Char → Option Binary64
  | '+' :: cs => readUnsigned? false cs
  | '-' :: cs => readUnsigned? true cs
  | cs => readUnsigned? false cs

end Binary64

end Dashboard.Number
