import PrivateFootage.Json.Escape
import PrivateFootage.Json.Parser
import PrivateFootage.Json.Printer
import PrivateFootage.Scalar

/-!
# Values in and out of JSON

Readers interpret the literals of a JSON value as texts, counts, numbers, choices and records. A
record is read from an object, where unknown members are ignored and a known name may occur once
only, or from an array of its fields in order, where fields at the end may be missing and none may
be left over. A choice among names is read from the name or from an object with the name as its
only member and null as its value.
-/

namespace PrivateFootage.Json

/-- The text of a string value. -/
def text? : Json → Option String
  | .string literal => (unescape? literal).map String.ofList
  | _ => none

/-- A natural number below a limit. A number with a sign, a point or an exponent is none. -/
def count? (limit : Nat) : Json → Option Nat
  | .number literal =>
    if literal.all Decimal.isDigit then
      let value := Decimal.readDigits literal 0
      if value < limit then some value else none
    else none
  | _ => none

/-- The truth value of a value. -/
def flag? : Json → Option Bool
  | .bool value => some value
  | _ => none

/-- A number within the range of the number type.

It is the number nearest to the decimal. A reader that rounds in more than one step can be off by one place
in the last bit, and then reads `0.9999999999999999` as one. -/
def scalar? {α : Type} [Scalar α] : Json → Option α
  | .number literal =>
    let (negative, rest) := Decimal.splitSign literal
    (Decimal.readUnsigned? negative rest).bind Scalar.ofDecimal?
  | _ => none

/-- The items of an array. -/
def items? : Json → Option (List Json)
  | .array items => some items
  | _ => none

/-- The members of an object with their names read. -/
def members? : Json → Option (List (String × Json))
  | .object members => members.mapM fun (name, value) =>
      (unescape? name).map fun characters => (String.ofList characters, value)
  | _ => none

/-- Read every item of an array with one reader. -/
def list? {β : Type} (read : Json → Option β) (value : Json) : Option (List β) := do
  (← value.items?).mapM read

/-- Read null as nothing and any other value with the given reader. -/
def optional? {β : Type} (read : Json → Option β) : Json → Option (Option β)
  | .null => some none
  | value => (read value).map some

/-- The fields of a record in the order of their names; a field may be missing. -/
def fields? (names : List String) (value : Json) : Option (List (Option Json)) :=
  match value with
  | .array items =>
    if items.length ≤ names.length then
      some (items.map some ++ List.replicate (names.length - items.length) none)
    else none
  | .object _ => do
    let members ← value.members?
    names.mapM fun name =>
      match members.filter fun member => member.1 = name with
      | [] => some none
      | [member] => some (some member.2)
      | _ => none
  | _ => none

/-- Read a field that has to be present. -/
def required? {β : Type} (read : Json → Option β) (field : Option Json) : Option β :=
  field.bind read

/-- Read a field that stands for a default when it is missing. -/
def defaulting? {β : Type} (default : β) (read : Json → Option β) : Option Json → Option β
  | none => some default
  | some value => read value

/-- The name a choice is written as. -/
def choice? : Json → Option String
  | .string literal => text? (.string literal)
  | .object [(name, .null)] => (unescape? name).map String.ofList
  | _ => none

/-- The value of a text. -/
def ofText (text : String) : Json :=
  .string (escape text.toList)

/-- The value of a natural number. -/
def ofCount (value : Nat) : Json :=
  .number (Decimal.digitChars value)

/-- An object with the given member names. -/
def ofMembers (members : List (String × Json)) : Json :=
  .object (members.map fun (name, value) => (escape name.toList, value))

end PrivateFootage.Json
