/-!
# Reading numbers

Three kinds of number are read from a whole text: integers of 64 bits with an optional sign, counts
of 64 bits with an optional plus, and floats with an optional point and exponent. A text that is not
wholly such a number, or whose integer does not fit, is refused.
-/

namespace Refute.Decimal

/-- The integer that a list of decimal digits stands for. -/
def digitsValue (digits : List Char) : Nat :=
  digits.foldl (fun total c => 10 * total + (c.toNat - '0'.toNat)) 0

/-- A nonempty list of decimal digits as an integer. -/
def readDigits? (text : List Char) : Option Nat :=
  if !text.isEmpty && text.all Char.isDigit then some (digitsValue text) else none

/-- An optional sign in front of a text: whether it is a minus, and the text after it. -/
def readSign : List Char → Bool × List Char
  | '-' :: rest => (true, rest)
  | '+' :: rest => (false, rest)
  | text => (false, text)

/-- The signed integer of 64 bits that the text is. -/
def readInteger? (text : List Char) : Option Int64 := do
  let (negative, digits) := readSign text
  let magnitude ← readDigits? digits
  if negative then
    if magnitude ≤ Nat.pow 2 63 then some (Int64.ofInt (-magnitude)) else none
  else
    if magnitude < Nat.pow 2 63 then some (Int64.ofInt magnitude) else none

/-- The count, an unsigned integer of 64 bits, that the text is. -/
def readCount? (text : List Char) : Option Nat := do
  let digits := match text with
    | '+' :: rest => rest
    | other => other
  let count ← readDigits? digits
  if count < Nat.pow 2 64 then some count else none

/-- The exponent after a mantissa: zero at the end of the text, else an `e` and an integer. -/
def readExponent? : List Char → Option Int
  | [] => some 0
  | c :: rest =>
    if c == 'e' || c == 'E' then do
      let (negative, digits) := readSign rest
      let magnitude ← readDigits? digits
      some (if negative then -(magnitude : Int) else magnitude)
    else none

/-- The nearest float to `digits * 10 ^ scale`; scales far outside the range of floats give
infinity and zero. -/
def nearestFloat (digits : Nat) (scale : Int) : Float :=
  let leading := scale + (Nat.toDigits 10 digits).length
  if digits = 0 || leading < -400 then 0.0
  else if 400 < leading then 1.0 / 0.0
  else Float.ofScientific digits (scale < 0) scale.natAbs

/-- An unsigned float: digits around an optional point, not both parts empty, and an exponent. -/
def readMagnitude? (text : List Char) : Option Float := do
  let whole := text.takeWhile Char.isDigit
  let (fraction, rest) := match text.dropWhile Char.isDigit with
    | '.' :: after => (after.takeWhile Char.isDigit, after.dropWhile Char.isDigit)
    | after => ([], after)
  if whole.isEmpty && fraction.isEmpty then none
  else
    let exponent ← readExponent? rest
    some (nearestFloat (digitsValue (whole ++ fraction)) (exponent - fraction.length))

/-- The float that the text is; infinity and NaN are spelled in any case. -/
def readFloat? (text : List Char) : Option Float := do
  let (negative, unsigned) := readSign text
  let word := String.ofList (unsigned.map Char.toLower)
  let magnitude ←
    if word == "inf" || word == "infinity" then some (1.0 / 0.0)
    else if word == "nan" then some (0.0 / 0.0)
    else readMagnitude? unsigned
  some (if negative then -magnitude else magnitude)

end Refute.Decimal
