import Typescribe.Json.Tree

/-!
# Numbers in JSON texts

Whole numbers of 64 bits are kept as they are, and all others are of double precision.
-/

namespace Typescribe.JsonText

/-- A number as written. -/
structure Numeral where
  isNegative : Bool
  whole : List Char
  fraction : List Char := []
  /-- The sign and the digits of the exponent, if there is one. -/
  exponent : Option (Bool × List Char) := none

/-- The fault of a number that lacks a digit. A number that is only passed over is malformed
even if it is the text that ends. -/
def missingDigit (strict : Bool) : List Char → JsonFault
  | [] => if strict then .ended else .malformed
  | _ :: _ => .malformed

/-- Digits, of which there has to be one, and what follows them. -/
def digits (strict : Bool) (text : List Char) : Except JsonFault (List Char × List Char) :=
  match text.takeWhile Char.isDigit with
  | [] => .error (missingDigit strict text)
  | found => .ok (found, text.dropWhile Char.isDigit)

/-- The digits of an exponent, behind its sign. -/
def exponentDigits (strict isNegative : Bool) (text : List Char) :
    Except JsonFault (Option (Bool × List Char) × List Char) := do
  let (found, rest) ← digits strict text
  return (some (isNegative, found), rest)

/-- The exponent of a number, if one follows. -/
def readExponent (strict : Bool) : List Char →
    Except JsonFault (Option (Bool × List Char) × List Char)
  | [] => .ok (none, [])
  | c :: rest =>
    if c = 'e' ∨ c = 'E' then
      match rest with
      | '+' :: rest => exponentDigits strict false rest
      | '-' :: rest => exponentDigits strict true rest
      | rest => exponentDigits strict false rest
    else .ok (none, c :: rest)

/-- The digits behind the point of a number, if there is a point. -/
def readFraction (strict : Bool) : List Char → Except JsonFault (List Char × List Char)
  | '.' :: rest => digits strict rest
  | text => .ok ([], text)

/-- Reads a number behind its sign. A zero in front of the other digits is malformed. -/
def readUnsigned (strict isNegative : Bool) (text : List Char) :
    Except JsonFault (Numeral × List Char) := do
  let (whole, text) ← digits strict text
  if whole.head? = some '0' ∧ whole.length ≠ 1 then throw .malformed
  let (fraction, text) ← readFraction strict text
  let (exponent, text) ← readExponent strict text
  return ({ isNegative, whole, fraction, exponent }, text)

/-- Reads a number. -/
def readNumeral (strict : Bool) : List Char → Except JsonFault (Numeral × List Char)
  | '-' :: rest => readUnsigned strict true rest
  | text => readUnsigned strict false text

/-- The greatest whole number of 64 bits. -/
def maxWhole : Nat := 0xFFFFFFFFFFFFFFFF

/-- The greatest size of a negative whole number of 64 bits. -/
def maxNegative : Nat := 0x8000000000000000

/-- The greatest exponent that is taken at its value. -/
def maxExponent : Nat := 0x7FFFFFFF

/-- Appends digits to a whole number as long as it has 64 bits. The digits that no longer fit are
given back. -/
def appendDigits (significand : Nat) : List Char → Nat × List Char
  | [] => (significand, [])
  | c :: rest =>
    let next := significand * 10 + (c.toNat - '0'.toNat)
    if maxWhole < next then (significand, c :: rest) else appendDigits next rest

/-- The number `value * 10 ^ exponent` in double precision, scaled in steps that are themselves of
double precision. -/
def scale (value : Float) (exponent : Int) : Float :=
  if exponent < -308 then
    if value == 0.0 then value else scale (value / 1e308) (exponent + 308)
  else if exponent < 0 then value / Float.ofScientific 1 false exponent.natAbs
  else value * Float.ofScientific 1 false exponent.natAbs
termination_by exponent.natAbs
decreasing_by omega

/-- The value of a number that is not whole or not of 64 bits. A number that double precision
cannot hold is malformed. -/
def doubleValue (significand : Nat) (exponent : Int) (isNegative : Bool) :
    Except JsonFault JsonNumber :=
  if 308 < exponent ∧ significand ≠ 0 then .error .malformed
  else
    let size := if significand = 0 then 0.0 else scale significand.toUInt64.toFloat exponent
    if size.isInf then .error .malformed
    else .ok (.double (if isNegative then -size else size))

/-- The number that digits stand for. -/
def digitsValue (text : List Char) : Nat :=
  text.foldl (fun value c => value * 10 + (c.toNat - '0'.toNat)) 0

/-- The value of a number as written. -/
def Numeral.value (numeral : Numeral) : Except JsonFault JsonNumber :=
  let (whole, dropped) := appendDigits 0 numeral.whole
  if dropped.isEmpty && numeral.fraction.isEmpty && numeral.exponent.isNone then
    if !numeral.isNegative then .ok (.natural whole)
    else if 0 < whole ∧ whole ≤ maxNegative then .ok (.negative whole)
    else .ok (.double (-whole.toUInt64.toFloat))
  else
    let (significand, unused) := appendDigits whole numeral.fraction
    let used := numeral.fraction.length - unused.length
    let exponent : Int := (dropped.length : Int) - used
    match numeral.exponent with
    | none => doubleValue significand exponent numeral.isNegative
    | some (isNegative, written) =>
      let size := digitsValue written
      if maxExponent < size then
        if significand ≠ 0 ∧ !isNegative then .error .malformed
        else .ok (.double (if numeral.isNegative then -0.0 else 0.0))
      else
        doubleValue significand (if isNegative then exponent - size else exponent + size)
          numeral.isNegative

end Typescribe.JsonText
