/-!
# JSON values

Number and string literals are kept as they are written and interpreted only when a value is read,
so a member that nobody reads is checked for form alone. Members keep their order, and a name that
occurs twice is kept twice: what that means is decided by the reader.
-/

namespace PrivateFootage

/-- A JSON value with uninterpreted literals. The characters of a string literal are those between
its quotation marks. -/
inductive Json where
  | null
  | bool (value : Bool)
  | number (literal : List Char)
  | string (literal : List Char)
  | array (items : List Json)
  | object (members : List (List Char × Json))
deriving Repr, Inhabited

namespace Json

/-- The smallest pieces of a JSON text. -/
inductive Token where
  | openArray
  | closeArray
  | openObject
  | closeObject
  | comma
  | colon
  | word (letters : List Char)
  | number (literal : List Char)
  | string (literal : List Char)
deriving DecidableEq, Repr

/-- The value of a hexadecimal digit in either case. -/
def hexValue? (character : Char) : Option Nat :=
  if '0' ≤ character && character ≤ '9' then some (character.toNat - '0'.toNat)
  else if 'a' ≤ character && character ≤ 'f' then some (character.toNat - 'a'.toNat + 10)
  else if 'A' ≤ character && character ≤ 'F' then some (character.toNat - 'A'.toNat + 10)
  else none

end Json

end PrivateFootage
