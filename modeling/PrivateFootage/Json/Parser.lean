import PrivateFootage.Json.Basic

/-!
# Reading JSON text

Reading takes two passes, each a left fold. The first groups characters into tokens; the second
builds the value from the tokens with the unfinished containers on a stack. Neither pass needs a
bound on the length or the nesting of the text.

The format is the strict one: no comments, no trailing commas, no leading zeros or plus signs, no
control characters inside strings, and nothing but blanks around the one value.
-/

namespace PrivateFootage.Json

/-- Where the first pass stands between two characters. -/
inductive Mode where
  | between
  | inWord (letters : List Char)
  | inNumber (literal : List Char)
  | inString (literal : List Char)
  | afterBackslash (literal : List Char)
  | inCode (missing : Nat) (literal : List Char)
deriving Repr

/-- The state of the first pass: the mode and the finished tokens in reverse order. -/
structure Scan where
  mode : Mode
  tokens : List Token
deriving Repr

/-- The four characters that may stand between tokens. -/
def isSpace (character : Char) : Bool :=
  character = ' ' || character = '\n' || character = '\t' || character = '\r'

/-- The characters that number literals are made of. -/
def isNumberChar (character : Char) : Bool :=
  character.isDigit || character = '-' || character = '+' || character = '.' || character = 'e' ||
    character = 'E'

/-- Take a character that starts a token or stands between tokens. -/
def Scan.start (tokens : List Token) (character : Char) : Option Scan :=
  if isSpace character then some ⟨.between, tokens⟩
  else if character = '[' then some ⟨.between, .openArray :: tokens⟩
  else if character = ']' then some ⟨.between, .closeArray :: tokens⟩
  else if character = '\x7b' then some ⟨.between, .openObject :: tokens⟩
  else if character = '\x7d' then some ⟨.between, .closeObject :: tokens⟩
  else if character = ',' then some ⟨.between, .comma :: tokens⟩
  else if character = ':' then some ⟨.between, .colon :: tokens⟩
  else if character = '"' then some ⟨.inString [], tokens⟩
  else if character.isDigit || character = '-' then some ⟨.inNumber [character], tokens⟩
  else if character.isLower then some ⟨.inWord [character], tokens⟩
  else none

/-- Take one character. Literals under way are held in reverse order. -/
def Scan.step (scan : Scan) (character : Char) : Option Scan :=
  match scan.mode with
  | .between => Scan.start scan.tokens character
  | .inWord letters =>
    if character.isLower then some ⟨.inWord (character :: letters), scan.tokens⟩
    else Scan.start (.word letters.reverse :: scan.tokens) character
  | .inNumber literal =>
    if isNumberChar character then some ⟨.inNumber (character :: literal), scan.tokens⟩
    else Scan.start (.number literal.reverse :: scan.tokens) character
  | .inString literal =>
    if character = '"' then some ⟨.between, .string literal.reverse :: scan.tokens⟩
    else if character = '\\' then some ⟨.afterBackslash (character :: literal), scan.tokens⟩
    else if character.toNat < 0x20 then none
    else some ⟨.inString (character :: literal), scan.tokens⟩
  | .afterBackslash literal =>
    if character = 'u' then some ⟨.inCode 4 (character :: literal), scan.tokens⟩
    else if "\"\\/bfnrt".toList.contains character then
      some ⟨.inString (character :: literal), scan.tokens⟩
    else none
  | .inCode missing literal =>
    if (hexValue? character).isNone then none
    else if missing ≤ 1 then some ⟨.inString (character :: literal), scan.tokens⟩
    else some ⟨.inCode (missing - 1) (character :: literal), scan.tokens⟩

/-- Close the first pass: the tokens in order, if no string is left open. -/
def Scan.finish (scan : Scan) : Option (List Token) :=
  match scan.mode with
  | .between => some scan.tokens.reverse
  | .inWord letters => some (Token.word letters.reverse :: scan.tokens).reverse
  | .inNumber literal => some (Token.number literal.reverse :: scan.tokens).reverse
  | .inString _ | .afterBackslash _ | .inCode _ _ => none

/-- Group the characters of a text into tokens. -/
def tokens? (characters : List Char) : Option (List Token) := do
  let scan ← characters.foldlM Scan.step ⟨.between, []⟩
  scan.finish

/-- Drop a run of at least one digit. -/
def dropDigits? (characters : List Char) : Option (List Char) :=
  match characters with
  | first :: _ => if first.isDigit then some (characters.dropWhile Char.isDigit) else none
  | [] => none

/-- Drop the whole part of a number literal: a zero, or digits that do not start with a zero. -/
def dropWhole? (characters : List Char) : Option (List Char) :=
  match characters with
  | '0' :: rest => some rest
  | _ => dropDigits? characters

/-- Drop an optional fraction of a number literal. -/
def dropFraction? (characters : List Char) : Option (List Char) :=
  match characters with
  | '.' :: rest => dropDigits? rest
  | _ => some characters

/-- Drop an optional exponent of a number literal. -/
def dropExponent? (characters : List Char) : Option (List Char) :=
  match characters with
  | mark :: rest =>
    if mark = 'e' ∨ mark = 'E' then
      match rest with
      | '+' :: digits => dropDigits? digits
      | '-' :: digits => dropDigits? digits
      | _ => dropDigits? rest
    else some characters
  | [] => some []

/-- Whether the characters form one number literal of the format. -/
def isNumber (literal : List Char) : Bool :=
  let unsigned := match literal with
    | '-' :: rest => rest
    | _ => literal
  ((dropWhole? unsigned).bind dropFraction?).bind dropExponent? = some []

/-- A container whose closing bracket has not been reached: what it holds so far, in reverse
order, and for an object the name whose value is being read. -/
inductive Open where
  | array (items : List Json)
  | object (members : List (List Char × Json)) (name : List Char)

/-- Where the second pass stands between two tokens, with the unfinished containers. -/
inductive Build where
  | value (outer : List Open)
  | firstItem (outer : List Open)
  | afterItem (items : List Json) (outer : List Open)
  | firstName (outer : List Open)
  | nextName (members : List (List Char × Json)) (outer : List Open)
  | afterName (members : List (List Char × Json)) (name : List Char) (outer : List Open)
  | afterMember (members : List (List Char × Json)) (outer : List Open)
  | done (value : Json)

/-- Hand a finished value to the container around it. -/
def Build.deliver (value : Json) : List Open → Build
  | [] => .done value
  | .array items :: outer => .afterItem (value :: items) outer
  | .object members name :: outer => .afterMember ((name, value) :: members) outer

/-- Take a token where a value has to start. -/
def Build.begin (outer : List Open) : Token → Option Build
  | .openArray => some (.firstItem outer)
  | .openObject => some (.firstName outer)
  | .number literal => if isNumber literal then some (deliver (.number literal) outer) else none
  | .string literal => some (deliver (.string literal) outer)
  | .word letters =>
    if letters = "null".toList then some (deliver .null outer)
    else if letters = "true".toList then some (deliver (.bool true) outer)
    else if letters = "false".toList then some (deliver (.bool false) outer)
    else none
  | _ => none

/-- Take one token. -/
def Build.step : Build → Token → Option Build
  | .value outer, token => begin outer token
  | .firstItem outer, .closeArray => some (deliver (.array []) outer)
  | .firstItem outer, token => begin (.array [] :: outer) token
  | .afterItem items outer, .comma => some (.value (.array items :: outer))
  | .afterItem items outer, .closeArray => some (deliver (.array items.reverse) outer)
  | .firstName outer, .closeObject => some (deliver (.object []) outer)
  | .firstName outer, .string name => some (.afterName [] name outer)
  | .nextName members outer, .string name => some (.afterName members name outer)
  | .afterName members name outer, .colon => some (.value (.object members name :: outer))
  | .afterMember members outer, .comma => some (.nextName members outer)
  | .afterMember members outer, .closeObject => some (deliver (.object members.reverse) outer)
  | _, _ => none

/-- Build the one value that a list of tokens spells. -/
def ofTokens? (tokens : List Token) : Option Json := do
  match ← tokens.foldlM Build.step (.value []) with
  | .done value => some value
  | _ => none

/-- Read a JSON text. -/
def parse? (text : String) : Option Json := do
  ofTokens? (← tokens? text.toList)

end PrivateFootage.Json
