import Typescribe.Decimal.Shortest
import Typescribe.Text.Shown

/-!
# JSON values
-/

namespace Typescribe

/-- A JSON number as it is kept. Whole numbers of 64 bits are exact, everything else is of double
precision. -/
inductive JsonNumber where
  | natural (value : Nat)
  /-- The negative of a positive number. -/
  | negative (value : Nat)
  | double (value : Float)

/-- A JSON value. Objects keep their members in order and with repetitions. -/
inductive Json where
  | null
  | bool (value : Bool)
  | number (value : JsonNumber)
  | string (value : String)
  | array (items : List Json)
  | object (members : List (String × Json))
  deriving Inhabited

/-- What a value is, as far as messages say. -/
inductive Shape where
  | null
  | bool (value : Bool)
  | number (value : JsonNumber)
  | string (value : String)
  | sequence
  | map

/-- Numbers in messages about JSON: without an exponent from `0.00001` up to sixteen digits before
the point, and with an even last digit if two are equally near. -/
def JsonNumber.format : Decimal.Format where
  smallest := some (-4)
  largest := some 16
  tie := .toEven
  infinity := "inf"
  notANumber := "NaN"

/-- How messages describe a value. -/
def Shape.text : Shape → String
  | null => "null"
  | bool value => "boolean `" ++ (if value then "true" else "false") ++ "`"
  | number (.natural value) => "integer `" ++ value.repr ++ "`"
  | number (.negative value) => "integer `-" ++ value.repr ++ "`"
  | number (.double value) => "floating point `" ++ JsonNumber.format.write value ++ "`"
  | string value => "string " ++ Text.shown value
  | sequence => "sequence"
  | map => "map"

namespace Json

mutual

/-- How deeply arrays and objects nest in a value. -/
def depth : Json → Nat
  | array items => itemsDepth items + 1
  | object members => membersDepth members + 1
  | _ => 0

/-- How deeply arrays and objects nest in the items of an array. -/
def itemsDepth : List Json → Nat
  | [] => 0
  | item :: rest => max item.depth (itemsDepth rest)

/-- How deeply arrays and objects nest in the members of an object. -/
def membersDepth : List (String × Json) → Nat
  | [] => 0
  | (_, value) :: rest => max value.depth (membersDepth rest)

end

/-- What a JSON value is. -/
def shape : Json → Shape
  | null => .null
  | bool value => .bool value
  | number value => .number value
  | string value => .string value
  | array _ => .sequence
  | object _ => .map

end Json

end Typescribe
