/-!
# Shortest decimals

A finite double is `significand * 2 ^ exponent`. The reals that round to it form an interval whose
ends belong to it exactly when the significand is even. The shortest decimal of the double is the
first grid of 1, 2, … digits that has a point in the interval, and on that grid the point nearest to
the double, the upper one when both are equally near.
-/

namespace Refute.Decimal

/-- The magnitude of a finite double. -/
structure Magnitude where
  /-- The integer that is scaled. -/
  significand : Nat
  /-- The power of two that scales it. -/
  exponent : Int
  /-- The double below is at half the distance of the double above. -/
  narrowBelow : Bool

/-- The interval of reals that round to a magnitude, over a common denominator. -/
structure Interval where
  /-- Numerator of the lower end. -/
  low : Nat
  /-- Numerator of the magnitude itself. -/
  value : Nat
  /-- Numerator of the upper end. -/
  high : Nat
  /-- The common denominator. -/
  denominator : Nat
  /-- Both ends belong to the interval. -/
  closed : Bool

/-- A decimal `digits * 10 ^ scale`. -/
structure Expansion where
  /-- The digits, read as one integer. -/
  digits : Nat
  /-- The power of ten that scales them. -/
  scale : Int

/-- The magnitude that the exponent and fraction fields of a double stand for. -/
def Magnitude.ofFields (exponentField fraction : Nat) : Magnitude :=
  if exponentField = 0 then
    { significand := fraction, exponent := -1074, narrowBelow := false }
  else
    { significand := fraction + Nat.pow 2 52
      exponent := (exponentField : Int) - 1075
      narrowBelow := fraction == 0 && 1 < exponentField }

/-- The rounding interval: half a unit above, and half a unit or a quarter below. -/
def Magnitude.interval (m : Magnitude) : Interval :=
  let scale := m.exponent - 2
  let factor := Nat.pow 2 scale.toNat
  { low := (4 * m.significand - (if m.narrowBelow then 1 else 2)) * factor
    value := 4 * m.significand * factor
    high := (4 * m.significand + 2) * factor
    denominator := Nat.pow 2 (-scale).toNat
    closed := m.significand % 2 == 0 }

namespace Interval

/-- The exponent of the value's leading decimal digit; no double is below `10 ^ (-350)`. -/
def leadingExponent (i : Interval) : Int :=
  ((Nat.toDigits 10 (i.value * Nat.pow 10 350 / i.denominator)).length : Int) - 351

/-- The decimal lies in the interval. -/
def holds (i : Interval) (d : Expansion) : Bool :=
  let point := d.digits * Nat.pow 10 d.scale.toNat * i.denominator
  let low := i.low * Nat.pow 10 (-d.scale).toNat
  let high := i.high * Nat.pow 10 (-d.scale).toNat
  if i.closed then low ≤ point && point ≤ high else low < point && point < high

/-- The largest decimal of the given scale that is not above the value. -/
def below (i : Interval) (scale : Int) : Expansion :=
  { digits := i.value * Nat.pow 10 (-scale).toNat / (i.denominator * Nat.pow 10 scale.toNat), scale }

/-- Twice the value is at least the sum of the decimal and its upper neighbour. -/
def upperIsNear (i : Interval) (d : Expansion) : Bool :=
  (2 * d.digits + 1) * Nat.pow 10 d.scale.toNat * i.denominator ≤
    2 * i.value * Nat.pow 10 (-d.scale).toNat

/-- The best decimal with the given number of digits, if the interval has one. -/
def withDigits (i : Interval) (count : Nat) : Option Expansion :=
  let lower := i.below (i.leadingExponent - count + 1)
  let upper := { lower with digits := lower.digits + 1 }
  match i.holds lower, i.holds upper with
  | true, true => some (if i.upperIsNear lower then upper else lower)
  | true, false => some lower
  | false, true => some upper
  | false, false => none

/-- The shortest decimal in the interval; seventeen digits always suffice for a double. -/
def shortest (i : Interval) : Expansion :=
  ((List.range 17).findSome? fun n => i.withDigits (n + 1)).getD (i.below (i.leadingExponent - 16))

end Interval

end Refute.Decimal
