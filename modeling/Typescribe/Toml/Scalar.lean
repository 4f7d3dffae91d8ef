import Typescribe.Toml.Value

/-!
# TOML values without quotes

Booleans, numbers, dates and times, each from the characters it is written with.
-/

namespace Typescribe.Toml

/-! ## Digits -/

/-- The value of a digit of any base. -/
def digitValue (c : Char) : Nat :=
  if c.isDigit then c.toNat - '0'.toNat else c.toLower.toNat - 'a'.toNat + 10

/-- The number that digits of a base stand for. -/
def digitsValue (base : Nat) (digits : List Char) : Nat :=
  digits.foldl (fun value c => value * base + digitValue c) 0

/-- The digits of a number in which single underscores may stand between digits. -/
def groupedDigits? (isDigit : Char → Bool) (text : List Char) : Option (List Char) :=
  let groups := text.splitOn '_'
  if groups.all fun group => !group.isEmpty && group.all isDigit then some groups.flatten
  else none

/-- The digits in front of the point of a decimal number, which do not start with a needless
zero. -/
def wholeDigits? (text : List Char) : Option (List Char) :=
  match groupedDigits? Char.isDigit text with
  | some ('0' :: _ :: _) => none
  | found => found

/-- A sign, if there is one, and what follows it. -/
def splitSign : List Char → Option Bool × List Char
  | '+' :: rest => (some false, rest)
  | '-' :: rest => (some true, rest)
  | text => (none, text)

/-! ## Integers -/

/-- Whether a character is a digit of base sixteen. -/
def isHexDigit (c : Char) : Bool :=
  c.isDigit || ('a' ≤ c && c ≤ 'f') || ('A' ≤ c && c ≤ 'F')

/-- Whether a character is a digit of base eight. -/
def isOctalDigit (c : Char) : Bool :=
  '0' ≤ c && c ≤ '7'

/-- Whether a character is a digit of base two. -/
def isBinaryDigit (c : Char) : Bool :=
  c == '0' || c == '1'

/-- Reads an integer. Only decimal integers have a sign. -/
def integer? (text : List Char) : Option Int :=
  match text with
  | '0' :: 'x' :: digits =>
    (groupedDigits? isHexDigit digits).map fun found => Int.ofNat (digitsValue 16 found)
  | '0' :: 'o' :: digits =>
    (groupedDigits? isOctalDigit digits).map fun found => Int.ofNat (digitsValue 8 found)
  | '0' :: 'b' :: digits =>
    (groupedDigits? isBinaryDigit digits).map fun found => Int.ofNat (digitsValue 2 found)
  | _ =>
    let (sign, digits) := splitSign text
    (wholeDigits? digits).map fun found =>
      let size := Int.ofNat (digitsValue 10 found)
      if sign = some true then -size else size

/-! ## Floats -/

/-- The exponents beyond which a number is zero or cannot be held. -/
def exponentBound : Nat := 400

/-- The value of a number given by its digits and the power of ten of the last one. -/
def decimalValue (digits : List Char) (exponent : Int) : Float :=
  let significand := digitsValue 10 digits
  let magnitude := exponent + (Nat.toDigits 10 significand).length
  if significand = 0 ∨ magnitude < -exponentBound then 0.0
  else if exponentBound < magnitude then 1.0 / 0.0
  else if exponent < 0 then Float.ofScientific significand true exponent.natAbs
  else Float.ofScientific significand false exponent.natAbs

/-- A text up to the first character of a kind, and what follows that character. -/
def cutAt (isMark : Char → Bool) (text : List Char) : List Char × Option (List Char) :=
  (text.takeWhile fun c => !isMark c, (text.dropWhile fun c => !isMark c).tail?)

/-- The exponent of a number, behind its mark. -/
def exponent? (text : List Char) : Option Int :=
  let (sign, digits) := splitSign text
  (groupedDigits? Char.isDigit digits).map fun found =>
    let size := Int.ofNat (digitsValue 10 found)
    if sign = some true then -size else size

/-- Reads a number with a fraction or an exponent. -/
def float? (text : List Char) : Option Toml :=
  let (sign, body) := splitSign text
  let signed (size : Float) : Float := if sign = some true then -size else size
  if body = "inf".toList then some (.float (signed (1.0 / 0.0)))
  else if body = "nan".toList then some (.float (signed (0.0 / 0.0)))
  else do
    let (mantissa, written) := cutAt (fun c => c == 'e' || c == 'E') body
    let (whole, behind) := cutAt (fun c => c == '.') mantissa
    let whole ← wholeDigits? whole
    let fraction ←
      match behind with
      | none => if written.isNone then none else some []
      | some digits => groupedDigits? Char.isDigit digits
    let exponent ←
      match written with
      | none => some 0
      | some digits => exponent? digits
    let size := decimalValue (whole ++ fraction) (exponent - fraction.length)
    return if size.isInf then .hugeFloat else .float (signed size)

/-! ## Dates and times -/

/-- The number that exactly the given number of digits stands for, and what follows them. -/
def fixedDigits? (count : Nat) (text : List Char) : Option (Nat × List Char) :=
  let digits := text.take count
  if digits.length = count ∧ digits.all Char.isDigit then
    some (digitsValue 10 digits, text.drop count)
  else none

/-- What follows an expected character. -/
def expectChar? (expected : Char) : List Char → Option (List Char)
  | c :: rest => if c = expected then some rest else none
  | [] => none

/-- The number of days of a month. -/
def daysOf (year month : Nat) : Nat :=
  if month = 2 then
    if year % 4 = 0 ∧ (year % 100 ≠ 0 ∨ year % 400 = 0) then 29 else 28
  else if month ∈ [4, 6, 9, 11] then 30
  else 31

/-- What follows a date. -/
def afterDate? (text : List Char) : Option (List Char) := do
  let (year, text) ← fixedDigits? 4 text
  let (month, text) ← fixedDigits? 2 (← expectChar? '-' text)
  let (day, text) ← fixedDigits? 2 (← expectChar? '-' text)
  if 1 ≤ month ∧ month ≤ 12 ∧ 1 ≤ day ∧ day ≤ daysOf year month then some text else none

/-- What follows the fraction of a second, if there is one. -/
def afterFraction? : List Char → Option (List Char)
  | '.' :: rest =>
    if (rest.takeWhile Char.isDigit).isEmpty then none else some (rest.dropWhile Char.isDigit)
  | text => some text

/-- What follows the seconds of a time, which may be left out. -/
def afterSeconds? : List Char → Option (List Char)
  | ':' :: rest => do
    let (second, text) ← fixedDigits? 2 rest
    if second ≤ 60 then afterFraction? text else none
  | text => some text

/-- What follows a time of day. -/
def afterTime? (text : List Char) : Option (List Char) := do
  let (hour, text) ← fixedDigits? 2 text
  let (minute, text) ← fixedDigits? 2 (← expectChar? ':' text)
  if hour ≤ 23 ∧ minute ≤ 59 then afterSeconds? text else none

/-- Whether a text is nothing or an offset from universal time. -/
def isOffset : List Char → Bool
  | [] => true
  | ['Z'] => true
  | ['z'] => true
  | sign :: rest =>
    (sign == '+' || sign == '-') &&
      match fixedDigits? 2 rest with
      | some (hour, ':' :: text) =>
        match fixedDigits? 2 text with
        | some (minute, []) => decide (hour ≤ 23) && decide (minute ≤ 59)
        | _ => false
      | _ => false

/-- Whether a text is a date, a time, or both. -/
def isDatetime (text : List Char) : Bool :=
  match afterDate? text with
  | some [] => true
  | some (separator :: rest) =>
    (separator == 'T' || separator == 't' || separator == ' ') &&
      match afterTime? rest with
      | some text => isOffset text
      | none => false
  | none => afterTime? text == some []

/-- Whether a text has the form of a date, behind which a space may introduce the time. -/
def isDate (text : List Char) : Bool :=
  afterDate? text == some []

/-! ## All together -/

/-- Reads a value without quotes. -/
def ofToken? (token : List Char) : Option Toml :=
  if token = "true".toList then some (.bool true)
  else if token = "false".toList then some (.bool false)
  else if isDatetime token then some .datetime
  else
    match integer? token with
    | some value => some (.integer value)
    | none => float? token

end Typescribe.Toml
