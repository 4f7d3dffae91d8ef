import Typescribe.Decimal.Shortest
import Typescribe.Text.Shown
import Typescribe.Text.Span

/-!
# TOML values

Every value and every key of a document knows where it stands, so that messages can point at it.
-/

namespace Typescribe

/-- A key as written at one place. -/
structure TomlKey where
  text : String
  span : Text.Span
  deriving DecidableEq, Repr

/-- What brought a table about, which decides who may add to it. -/
inductive TableOrigin where
  /-- Its own header. -/
  | header
  /-- A header of a table inside it. -/
  | outerHeader
  /-- A dotted key. -/
  | dottedKey
  /-- Braces. -/
  | braces
  deriving DecidableEq, Repr

/-- What brought an array about. -/
inductive ArrayOrigin where
  /-- Headers in double brackets, one for each item. -/
  | headers
  /-- Brackets. -/
  | brackets
  deriving DecidableEq, Repr

/-- A TOML value. -/
inductive Toml where
  | string (text : String)
  | integer (value : Int)
  | float (value : Float)
  /-- A number with a fraction or an exponent that double precision cannot hold. -/
  | hugeFloat
  | bool (value : Bool)
  | datetime
  | array (origin : ArrayOrigin) (items : List (Text.Span × Toml))
  | table (origin : TableOrigin) (entries : List (TomlKey × Text.Span × Toml))
  deriving Inhabited

/-- An entry of a table: its key, and its value with its place. -/
abbrev TomlEntry := TomlKey × Text.Span × Toml

namespace Toml

/-- Numbers in messages about TOML: always without an exponent, and away from zero if two are equally
near. -/
def floatFormat : Decimal.Format where
  smallest := none
  largest := none
  tie := .up
  infinity := "inf"
  notANumber := "NaN"

/-- The bound of signed numbers of 64 bits. -/
def bound64 : Int := 0x8000000000000000

/-- The bound of signed numbers of 128 bits. -/
def bound128 : Int := 0x80000000000000000000000000000000

/-- An integer in a message, with the type that it takes if 64 bits do not hold it. -/
def integerText (value : Int) : String :=
  "integer `" ++ toString value ++ "`" ++
    if -bound64 ≤ value ∧ value < 2 * bound64 then ""
    else if value < bound128 then " as i128"
    else " as u128"

/-- Whether an integer is beyond what a decoder can hold. -/
def isHuge (value : Int) : Bool :=
  decide (value < -bound128) || decide (2 * bound128 ≤ value)

end Toml

end Typescribe
