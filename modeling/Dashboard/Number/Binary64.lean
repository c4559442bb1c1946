import Dashboard.Number.Power
/-!
# Binary floating point numbers of 64 bits

A finite number is a sign, a significand below `2 ^ 53` and an exponent of two; significands below
`2 ^ 52` occur at the smallest exponent only, so that every value has one representation for each
sign. Quotients of naturals are rounded to the nearest such number, a tie to the even significand,
and a value past the largest one becomes infinite. Rounding to a whole number takes halves away
from zero.
-/

namespace Dashboard.Number

def minExponent : Int := -1074

def maxExponent : Int := 971

def Representable (significand : Nat) (exponent : Int) : Prop :=
  significand < twoTo 53 ∧ minExponent ≤ exponent ∧ exponent ≤ maxExponent ∧
    (twoTo 52 ≤ significand ∨ exponent = minExponent)

instance (m : Nat) (e : Int) : Decidable (Representable m e) := by
  unfold Representable; infer_instance

inductive Binary64 where
  | finite (negative : Bool) (significand : Nat) (exponent : Int)
      (representable : Representable significand exponent)
  | infinite (negative : Bool)
  | nan
deriving DecidableEq

namespace Binary64

/-- The number with the given parts; parts out of range stand for an infinity. -/
def ofParts (negative : Bool) (m : Nat) (e : Int) : Binary64 :=
  if h : Representable m e then .finite negative m e h else .infinite negative

def zero (negative : Bool) : Binary64 := ofParts negative 0 minExponent

instance : Inhabited Binary64 := ⟨zero false⟩

/-- The numerator and denominator of `n * 2 ^ e`. -/
def scaled (n : Nat) (e : Int) : Nat × Nat :=
  if 0 ≤ e then (n * twoTo e.toNat, 1) else (n, twoTo (-e).toNat)

/-- The natural nearest to `num / den`, the even one of two. -/
def divideEven (num den : Nat) : Nat :=
  let q := num / den
  let r := num % den
  if den < 2 * r || (2 * r == den && q % 2 == 1) then q + 1 else q

/-- The power of two that the last place of `num / den` stands for. -/
def placeOf (num den : Nat) : Int :=
  let e : Int := (num.log2 : Int) - (den.log2 : Int)
  let fits := if 0 ≤ e then den * twoTo e.toNat ≤ num else den ≤ num * twoTo (-e).toNat
  max minExponent (if fits then e - 52 else e - 53)

def ofQuotient (negative : Bool) (num den : Nat) : Binary64 :=
  if num = 0 then zero negative
  else
    let e := placeOf num den
    let m := if 0 ≤ e then divideEven num (den * twoTo e.toNat)
      else divideEven (num * twoTo (-e).toNat) den
    if m = twoTo 53 then ofParts negative (twoTo 52) (e + 1) else ofParts negative m e

def ofNat (n : Nat) : Binary64 := ofQuotient false n 1

def ofInt (i : Int) : Binary64 := ofQuotient (i < 0) i.natAbs 1

def isFinite : Binary64 → Bool
  | .finite .. => true
  | _ => false

def negate : Binary64 → Binary64
  | .finite s m e h => .finite (!s) m e h
  | .infinite s => .infinite (!s)
  | .nan => .nan

def isZero : Binary64 → Bool
  | .finite _ m _ _ => m == 0
  | _ => false

/-- Products of finite numbers; the other cases do not arise where numbers are read. -/
def mul : Binary64 → Binary64 → Binary64
  | .finite s m e _, .finite t n f _ =>
    let (num, den) := scaled (m * n) (e + f)
    ofQuotient (s != t) num den
  | .nan, _ | _, .nan => .nan
  | .infinite s, .infinite t => .infinite (s != t)
  | .infinite s, .finite t n _ _ | .finite t n _ _, .infinite s =>
    if n = 0 then .nan else .infinite (s != t)

/-- The quotient by a finite number other than zero. -/
def div : Binary64 → Binary64 → Binary64
  | .finite s m e _, .finite t n f _ =>
    if n = 0 then (if m = 0 then .nan else .infinite (s != t))
    else
      let (num, den) := scaled m (e - f)
      ofQuotient (s != t) num (den * n)
  | .nan, _ | _, .nan => .nan
  | .infinite _, .infinite _ => .nan
  | .infinite s, .finite t _ _ _ => .infinite (s != t)
  | .finite s _ _ _, .infinite t => zero (s != t)

/-- The whole number nearest to `m * 2 ^ e`, a half up. -/
def nearestNat (m : Nat) (e : Int) : Nat :=
  let (num, den) := scaled m e
  (2 * num + den) / (2 * den)

/-- The whole number nearest to a number, halves away from zero; none for what is not finite. -/
def round? : Binary64 → Option Int
  | .finite s m e _ => some (if s then -(nearestNat m e : Int) else nearestNat m e)
  | _ => none

/-- The whole number of a number that has no fractional part. -/
def whole? : Binary64 → Option Int
  | .finite s m e _ =>
    let (num, den) := scaled m e
    if num % den = 0 then some (if s then -(num / den : Nat) else (num / den : Nat)) else none
  | _ => none

def isNegative : Binary64 → Bool
  | .finite s _ _ _ => s
  | .infinite s => s
  | .nan => false

end Binary64

end Dashboard.Number
