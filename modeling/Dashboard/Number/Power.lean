/-!
# Powers of two and of ten

They bound the numbers of a width and scale the numerals of a base.
-/

namespace Dashboard.Number

def twoTo (n : Nat) : Nat := Nat.pow 2 n

def tenTo (n : Nat) : Nat := Nat.pow 10 n

/-- The least number of so many bits with a sign. -/
def lowestOf (bits : Nat) : Int := -(twoTo (bits - 1) : Int)

/-- The greatest number of so many bits with a sign. -/
def highestOf (bits : Nat) : Int := (twoTo (bits - 1) : Int) - 1

/-- The sum of a list of counts. -/
def total (ns : List Nat) : Nat := ns.foldr (fun n m => n + m) 0

end Dashboard.Number
