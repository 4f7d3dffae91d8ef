import Typescribe.Json.Numeral
import Typescribe.Json.Quoted

/-!
# Values in JSON texts that are passed over

A value that nobody wants to know only has to have the form of one. It may nest to any depth, its
numbers may be of any size, and its surrogates need no partners.
-/

namespace Typescribe.JsonText

/-- What surrounds a value. -/
inductive Container where
  | array
  | object
  deriving DecidableEq

/-- What has to come next in a value that is passed over. -/
inductive Awaiting where
  | value
  /-- The first item or member, or the end, of the innermost container. -/
  | first
  /-- A comma or the end of the innermost container. -/
  | separator
  | key

/-- The character that ends a container. -/
def Container.close : Container → Char
  | array => ']'
  | object => '\x7d'

/-- What a container holds. -/
def Container.holds : Container → Awaiting
  | array => .value
  | object => .key

/-- What follows a value that is neither an array nor an object. -/
def passScalar : List Char → Except JsonFault (List Char)
  | [] => .error .ended
  | 'n' :: rest => expectWord "ull".toList rest
  | 't' :: rest => expectWord "rue".toList rest
  | 'f' :: rest => expectWord "alse".toList rest
  | '"' :: rest => do
    let (_, rest) ← readString false [] .plain rest
    return rest
  | c :: rest =>
    if c = '-' ∨ c.isDigit then do
      let (_, rest) ← readNumeral false (c :: rest)
      return rest
    else .error .malformed

/-- What follows a key and its colon. -/
def passKey : List Char → Except JsonFault (List Char)
  | '"' :: rest => do
    let (_, rest) ← readString false [] .plain rest
    match skipBlanks rest with
    | [] => .error .ended
    | ':' :: rest => return rest
    | _ => .error .malformed
  | _ => .error .malformed

/-- Passes over the rest of a value inside the given containers, the innermost first. Containers
may nest to any depth. The first argument bounds the number of steps. -/
def pass : Nat → List Container → Awaiting → List Char → Except JsonFault (List Char)
  | 0, _, _, _ => .error .malformed
  | steps + 1, stack, awaiting, text =>
    match awaiting, stack, skipBlanks text with
    | .separator, [], _ => .ok text
    | _, _, [] => .error .ended
    | .value, _, c :: rest =>
      if c = '[' then pass steps (.array :: stack) .first rest
      else if c = '\x7b' then pass steps (.object :: stack) .first rest
      else do
        let rest ← passScalar (c :: rest)
        pass steps stack .separator rest
    | .key, _, c :: rest => do
      let rest ← passKey (c :: rest)
      pass steps stack .value rest
    | .first, inner :: outer, c :: rest =>
      if c = inner.close then pass steps outer .separator rest
      else pass steps stack inner.holds (c :: rest)
    | .separator, inner :: outer, c :: rest =>
      if c = inner.close then pass steps outer .separator rest
      else if c = ',' then pass steps stack inner.holds rest
      else .error .malformed
    | .first, [], _ => .error .malformed

/-- What follows a value that nobody wants to know. -/
def passValue (text : List Char) : Except JsonFault (List Char) :=
  pass (2 * text.length + 2) [] .value text

end Typescribe.JsonText
