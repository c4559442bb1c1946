import Dashboard.Number.Power
/-!
# Reading whole numbers

A whole number is a run of ASCII digits, with an optional sign before it. Unsigned readers take no
minus sign. A number that does not fit its range is not read at all.
-/

namespace Dashboard.Number

def digitValue (c : Char) : Nat := c.toNat - 48

def digitsValue (cs : List Char) : Nat := cs.foldl (fun n c => 10 * n + digitValue c) 0

def natOfDigits? (cs : List Char) : Option Nat :=
  if cs ≠ [] && cs.all Char.isDigit then some (digitsValue cs) else none

def readNat? (limit : Nat) (cs : List Char) : Option Nat :=
  let digits := match cs with
    | '+' :: ds => ds
    | ds => ds
  (natOfDigits? digits).filter (· < limit)

def readInt? (lowest highest : Int) (cs : List Char) : Option Int :=
  let value := match cs with
    | '-' :: ds => (natOfDigits? ds).map fun n => -(n : Int)
    | '+' :: ds => (natOfDigits? ds).map Int.ofNat
    | ds => (natOfDigits? ds).map Int.ofNat
  value.filter fun i => lowest ≤ i && i ≤ highest

def readInt32? : List Char → Option Int := readInt? (lowestOf 32) (highestOf 32)

def readInt64? : List Char → Option Int := readInt? (lowestOf 64) (highestOf 64)

def readNat32? : List Char → Option Nat := readNat? (twoTo 32)

def readNat64? : List Char → Option Nat := readNat? (twoTo 64)

def digitsOf (n : Nat) : List Char := Nat.toDigits 10 n

def intText (i : Int) : String :=
  if i < 0 then String.ofList ('-' :: digitsOf i.natAbs) else String.ofList (digitsOf i.natAbs)

def natText (n : Nat) : String := String.ofList (digitsOf n)

end Dashboard.Number
