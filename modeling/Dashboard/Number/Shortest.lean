import Dashboard.Number.Decimal
/-!
# The shortest decimal that reads back

For one to seventeen digits the two neighbours of a number on that decimal grid are tried. The
first grid on which one of them reads back decides; of two such neighbours the nearer is taken and
the even one of a tie. Seventeen digits always suffice, and the exact value stands behind them.
-/

namespace Dashboard.Number

namespace Binary64

/-- The greatest power of ten that is not above `num / den`, looked for from a given start. -/
def decimalPlace (num den : Nat) : Nat → Int → Int
  | 0, k => k
  | steps + 1, k =>
    let fits := if 0 ≤ k then den * tenTo k.toNat ≤ num else den ≤ num * tenTo (-k).toNat
    if fits then k else decimalPlace num den steps (k - 1)

/-- An exponent of ten that is above the value by two at the most. -/
def placeStart (num den : Nat) : Int :=
  (((num.log2 : Int) - (den.log2 : Int) + 1) * 30103).fdiv 100000 + 1

/-- `num / den` on the grid of `10 ^ unit`: the greatest grid point below, and what is left of it
as a numerator over the returned denominator. -/
def onGrid (num den : Nat) (unit : Int) : Nat × Nat × Nat :=
  let (n, d) := if 0 ≤ unit then (num, den * tenTo unit.toNat) else (num * tenTo (-unit).toNat, den)
  (n / d, n % d, d)

/-- A decimal without zeros at the end of its digits; as many are dropped as steps allow. -/
def dropZeros : Nat → Decimal → Decimal
  | 0, d => d
  | steps + 1, d =>
    if d.digits % 10 = 0 && d.digits ≠ 0 then dropZeros steps ⟨d.digits / 10, d.exponent + 1⟩ else d

def gridPoint (n : Nat) (unit : Int) : Decimal := dropZeros 20 ⟨n, unit⟩

def readsBack (x : Binary64) (d : Decimal) : Bool := d.toBinary64 x.isNegative == x

def nearerOf (low high : Decimal) (lowIsNearer lowReads highReads : Bool) : Option Decimal :=
  if lowReads && (lowIsNearer || !highReads) then some low
  else if highReads then some high
  else none

def gridDecimal? (x : Binary64) (num den : Nat) (place : Int) (digits : Nat) : Option Decimal :=
  let unit := place - digits + 1
  let (below, left, whole) := onGrid num den unit
  let low := gridPoint below unit
  let high := gridPoint (below + 1) unit
  let lowIsNearer := 2 * left < whole || (2 * left == whole && below % 2 == 0)
  nearerOf low high lowIsNearer (readsBack x low) (readsBack x high)

/-- The exact value of `m * 2 ^ e` as a decimal. -/
def exactDecimal (m : Nat) (e : Int) : Decimal :=
  if 0 ≤ e then ⟨m * twoTo e.toNat, 0⟩ else ⟨m * Nat.pow 5 (-e).toNat, e⟩

def shortest (x : Binary64) (m : Nat) (e : Int) : Decimal :=
  let (num, den) := scaled m e
  let place := decimalPlace num den 4 (placeStart num den)
  ((List.range 17).findSome? fun n => gridDecimal? x num den place (n + 1)).getD (exactDecimal m e)

end Binary64

end Dashboard.Number
