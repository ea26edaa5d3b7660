import Refute.Decimal.Shortest

/-!
# The text of a float

A float is written with its shortest digits. Its layout is positional, with at least one digit on
each side of the point, for exponents of the leading digit from -4 to 15, and exponential otherwise.
-/

namespace Refute.Decimal

/-- Which exponents of the leading digit are written positionally. -/
structure Layout where
  /-- The least exponent written positionally. -/
  least : Int
  /-- The greatest exponent written positionally. -/
  greatest : Int

/-- Magnitudes from `0.0001` up to but not including `10 ^ 16` are written positionally. -/
def Layout.standard : Layout := ⟨-4, 15⟩

/-- The digits with their trailing zeros dropped; at least one digit stays. -/
def significantDigits (digits : Nat) : List Char :=
  let all := Nat.toDigits 10 digits
  match (all.reverse.dropWhile (· == '0')).reverse with
  | [] => ['0']
  | kept => kept

/-- Digits around a point that stands after the digit of exponent zero. -/
def positional (digits : List Char) (exponent : Int) : List Char :=
  if exponent < 0 then
    ['0', '.'] ++ List.replicate (-exponent - 1).toNat '0' ++ digits
  else
    let whole := exponent.toNat + 1
    let front := digits.take whole ++ List.replicate (whole - digits.length) '0'
    let back := digits.drop whole
    front ++ '.' :: (if back.isEmpty then ['0'] else back)

/-- One digit, the others after a point, and the exponent after an `e`. -/
def exponential (digits : List Char) (exponent : Int) : List Char :=
  let mantissa :=
    match digits with
    | [] => []
    | [first] => [first]
    | first :: others => first :: '.' :: others
  let sign := if exponent < 0 then ['-'] else []
  mantissa ++ 'e' :: sign ++ Nat.toDigits 10 exponent.natAbs

/-- The text of a decimal under a layout. -/
def Expansion.render (layout : Layout) (d : Expansion) : List Char :=
  let exponent := d.scale + (Nat.toDigits 10 d.digits).length - 1
  let digits := significantDigits d.digits
  if layout.least ≤ exponent && exponent ≤ layout.greatest then positional digits exponent
  else exponential digits exponent

/-- The text of a float. -/
def write (x : Float) : String :=
  let bits := x.toBits.toNat
  let exponentField := bits / Nat.pow 2 52 % Nat.pow 2 11
  let fraction := bits % Nat.pow 2 52
  let sign := if bits < Nat.pow 2 63 then "" else "-"
  if exponentField = 2047 then
    if fraction = 0 then sign ++ "inf" else "NaN"
  else if exponentField = 0 ∧ fraction = 0 then
    sign ++ "0.0"
  else
    let decimal := (Magnitude.ofFields exponentField fraction).interval.shortest
    sign ++ String.ofList (decimal.render Layout.standard)

end Refute.Decimal
