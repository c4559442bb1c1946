import Dashboard.Number.Binary64
/-!
# Whole pixels

A pixel coordinate is a signed number of 32 bits. Sums of coordinates stay at the nearer end of
that range when they leave it. Halves are rounded away from zero.
-/

namespace Dashboard

abbrev Pixel := Int32

namespace Pixel

def clamp (i : Int) : Pixel := Int32.ofIntClamp i

def ofInt? (i : Int) : Option Pixel :=
  if Number.lowestOf 32 ≤ i && i ≤ Number.highestOf 32 then some (Int32.ofInt i) else none

def ofBinary64 (x : Number.Binary64) : Pixel :=
  match x with
  | .infinite negative => if negative then Int32.minValue else Int32.maxValue
  | .nan => 0
  | x => clamp (x.round?.getD 0)

/-- Half of a whole number, a remaining half away from zero. -/
def half (i : Int) : Int := if i < 0 then -((-i + 1) / 2) else (i + 1) / 2

theorem two_mul_half (i : Int) :
    2 * half i = if i % 2 = 0 then i else if i < 0 then i - 1 else i + 1 := by
  unfold half
  split <;> split <;> omega

def add (a b : Pixel) : Pixel := clamp (a.toInt + b.toInt)

def sub (a b : Pixel) : Pixel := clamp (a.toInt - b.toInt)

def toBinary64 (a : Pixel) : Number.Binary64 := .ofInt a.toInt

end Pixel

end Dashboard
