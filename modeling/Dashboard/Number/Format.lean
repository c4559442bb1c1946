import Dashboard.Number.Shortest
/-!
# Writing floating point numbers

Two layouts of the shortest decimal are in use. The document layout always has a fraction or an
exponent: it is positional from `1e-5` to below `1e16` and has `e+` or `e-` elsewhere. The plain
layout is positional throughout and writes whole numbers without a fraction.
-/

namespace Dashboard.Number.Binary64

def zeros (n : Nat) : List Char := List.replicate n '0'

/-- Digits with `exponent` zeros after them, or with a point before their last digits. -/
def positional (ds : List Char) (exponent : Int) : List Char :=
  if 0 ≤ exponent then ds ++ zeros exponent.toNat
  else
    let places := (-exponent).toNat
    if places < ds.length then
      ds.take (ds.length - places) ++ '.' :: ds.drop (ds.length - places)
    else '0' :: '.' :: zeros (places - ds.length) ++ ds

def signChars (negative : Bool) : List Char := if negative then ['-'] else []

def scientific (ds : List Char) (exponent : Int) : List Char :=
  let mantissa := match ds with
    | [] => []
    | [d] => [d]
    | d :: rest => d :: '.' :: rest
  mantissa ++ 'e' :: (if exponent < 0 then '-' else '+') :: digitsOf exponent.natAbs

def documentChars (d : Decimal) : List Char :=
  let ds := digitsOf d.digits
  let leading : Int := d.exponent + ds.length - 1
  if -5 ≤ leading && leading < 16 then
    if 0 ≤ d.exponent then positional ds d.exponent ++ ['.', '0'] else positional ds d.exponent
  else scientific ds leading

/-- The document layout. What is not finite has no numeral and is written as `null`. -/
def documentText : Binary64 → String
  | x@(.finite s m e _) =>
    if m = 0 then String.ofList (signChars s ++ ['0', '.', '0'])
    else String.ofList (signChars s ++ documentChars (x.shortest m e))
  | _ => "null"

/-- The plain layout. -/
def plainText : Binary64 → String
  | x@(.finite s m e _) =>
    if m = 0 then String.ofList (signChars s ++ ['0'])
    else
      let d := x.shortest m e
      String.ofList (signChars s ++ positional (digitsOf d.digits) d.exponent)
  | .infinite s => if s then "-inf" else "inf"
  | .nan => "NaN"

end Dashboard.Number.Binary64
