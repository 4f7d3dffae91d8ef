/-!
# Shortest decimals

A binary number is shown by the fewest decimal digits that still lie closer to it than to its
neighbours, and among those by the digits nearest to it. Where two lie equally near, the format
that is written decides.
-/

namespace Typescribe

/-- The number `digits * 10 ^ exponent`. -/
structure Decimal where
  digits : Nat
  exponent : Int
  deriving DecidableEq, Repr

namespace Decimal

/-- The numbers that read as one binary number, all over the common denominator `scale`: the number
itself, and the ends of the interval around it. -/
structure Interval where
  value : Nat
  low : Nat
  high : Nat
  scale : Nat
  /-- Whether the ends belong to the interval. -/
  closed : Bool

/-- The interval of the number `mantissa * 2 ^ exponent`. Below a power of two the neighbour is
nearer, unless the number is of the smallest kind. -/
def Interval.ofBinary (mantissa : Nat) (exponent : Int) (nearBelow : Bool) : Interval :=
  let shift := exponent - 2
  let factor := Nat.pow 2 shift.toNat
  { value := 4 * mantissa * factor
    low := (4 * mantissa - if nearBelow then 1 else 2) * factor
    high := (4 * mantissa + 2) * factor
    scale := Nat.pow 2 (-shift).toNat
    closed := mantissa % 2 == 0 }

/-- Which of two whole numbers that are equally near to a value stands for it. -/
inductive Tie where
  | toEven
  | up
  deriving DecidableEq, Repr

/-- The choice between a whole number and the next one. -/
def Tie.choose (tie : Tie) (below : Nat) : Nat :=
  match tie with
  | toEven => if below % 2 == 0 then below else below + 1
  | up => below + 1

namespace Interval

/-- A number of units of `10 ^ exponent`, as a fraction over `scale * 10 ^ n` for the least `n`
that leaves no remainder: its numerator. -/
def unitsOver (interval : Interval) (units : Nat) (exponent : Int) : Nat :=
  units * Nat.pow 10 exponent.toNat * interval.scale

/-- A numerator of the interval brought to the denominator of `unitsOver`. -/
def raised (numerator : Nat) (exponent : Int) : Nat :=
  numerator * Nat.pow 10 (-exponent).toNat

/-- Whether a number of units of `10 ^ exponent` lies in the interval. -/
def containsUnits (interval : Interval) (units : Nat) (exponent : Int) : Bool :=
  let point := interval.unitsOver units exponent
  let low := raised interval.low exponent
  let high := raised interval.high exponent
  if interval.closed then decide (low ≤ point) && decide (point ≤ high)
  else decide (low < point) && decide (point < high)

/-- The greatest number of units of `10 ^ exponent` that is not above the value. -/
def floorUnits (interval : Interval) (exponent : Int) : Nat :=
  raised interval.value exponent / interval.unitsOver 1 exponent

/-- The number of units of `10 ^ exponent` in the interval that is nearest to the value. -/
def nearest? (interval : Interval) (tie : Tie) (exponent : Int) : Option Nat :=
  let below := interval.floorUnits exponent
  let value := raised interval.value exponent
  match interval.containsUnits below exponent, interval.containsUnits (below + 1) exponent with
  | true, true =>
    let distanceBelow := value - interval.unitsOver below exponent
    let distanceAbove := interval.unitsOver (below + 1) exponent - value
    if distanceBelow < distanceAbove then some below
    else if distanceAbove < distanceBelow then some (below + 1)
    else some (tie.choose below)
  | true, false => some below
  | false, true => some (below + 1)
  | false, false => none

/-- The least power of ten above the value, for values between `10 ^ -340` and `10 ^ 340`. -/
def magnitude (interval : Interval) : Int :=
  let powers := (List.range 680).map fun index : Nat => (index : Int) - 340
  (powers.find? fun power =>
    decide (raised interval.value power < interval.unitsOver 1 power)).getD 340

end Interval

/-- A decimal without trailing zeros among its digits. The count bounds the zeros removed. -/
def trimZeros : Nat → Decimal → Decimal
  | 0, decimal => decimal
  | count + 1, decimal =>
    if decimal.digits % 10 == 0 && decimal.digits != 0 then
      trimZeros count ⟨decimal.digits / 10, decimal.exponent + 1⟩
    else
      decimal

/-- Seventeen significant digits tell all binary numbers of double precision apart. -/
def maxDigits : Nat := 17

/-- The shortest decimal in an interval. -/
def Interval.shortest (interval : Interval) (tie : Tie) : Decimal :=
  let magnitude := interval.magnitude
  let found := (List.range maxDigits).findSome? fun count =>
    let exponent := magnitude - (count + 1 : Nat)
    (interval.nearest? tie exponent).map fun units => Decimal.mk units exponent
  (found.getD ⟨0, 0⟩).trimZeros (maxDigits + 1)

/-- The number of values of the fraction of a number of double precision. -/
def fractionRange : Nat := 0x10000000000000

/-- The number of values of the exponent of a number of double precision. -/
def exponentRange : Nat := 0x800

/-- The shortest decimal of a positive number of double precision. -/
def ofFloat (tie : Tie) (value : Float) : Decimal :=
  let bits := value.toBits.toNat
  let fraction : Nat := bits % fractionRange
  let exponent : Nat := bits / fractionRange % exponentRange
  let interval :=
    if exponent == 0 then Interval.ofBinary fraction (-1074) false
    else
      Interval.ofBinary (fractionRange + fraction) ((exponent : Int) - 1075)
        (fraction == 0 && decide (1 < exponent))
  interval.shortest tie

/-- How numbers are written. -/
structure Format where
  /-- The least position of the point that is written without an exponent, counted from before the
  first digit, if there is a least. -/
  smallest : Option Int
  /-- The greatest such position, if there is a greatest. -/
  largest : Option Int
  /-- Which of two shortest decimals that are equally near is written. -/
  tie : Tie
  infinity : String
  notANumber : String

/-- Zeros as text. -/
def zeros (count : Nat) : List Char :=
  List.replicate count '0'

/-- Digits with the point at the given position, counted from before the first digit. Whole
numbers keep one digit behind the point. -/
def positional (digits : List Char) (point : Int) : List Char :=
  if point ≤ 0 then
    ['0', '.'] ++ zeros (-point).toNat ++ digits
  else if point < digits.length then
    digits.take point.toNat ++ ['.'] ++ digits.drop point.toNat
  else
    digits ++ zeros (point.toNat - digits.length) ++ ['.', '0']

/-- Digits with an exponent, which always has a sign, for the point at the given position. -/
def scientific (digits : List Char) (point : Int) : List Char :=
  let exponent := point - 1
  let mantissa :=
    match digits with
    | first :: second :: rest => first :: '.' :: second :: rest
    | short => short
  mantissa ++ ['e', if exponent < 0 then '-' else '+'] ++ Nat.toDigits 10 exponent.natAbs

/-- A number of double precision as text. -/
def Format.write (format : Format) (value : Float) : String :=
  let sign := if value.toBits.toNat / (fractionRange * exponentRange) == 1 then "-" else ""
  let size := value.abs
  if value.isNaN then format.notANumber
  else if size.isInf then sign ++ format.infinity
  else if size == 0.0 then sign ++ "0.0"
  else
    let decimal := ofFloat format.tie size
    let digits := Nat.toDigits 10 decimal.digits
    let point := decimal.exponent + digits.length
    let isPositional :=
      (format.smallest.all fun least => decide (least ≤ point)) &&
        format.largest.all fun most => decide (point ≤ most)
    sign ++ String.ofList (if isPositional then positional digits point else scientific digits point)

end Decimal

end Typescribe
