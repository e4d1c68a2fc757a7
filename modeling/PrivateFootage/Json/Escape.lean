import PrivateFootage.Json.Basic

/-!
# String literals

Writing escapes the quotation mark, the backslash and the control characters below space, five of
them by a letter and the others by a four-digit code. Reading undoes every escape of the format. A
code in the surrogate range has to be the first half of a pair directly followed by its second
half; a half that stands alone makes the literal unreadable.
-/

namespace PrivateFootage.Json

/-- The lower-case hexadecimal digit of a number below sixteen. -/
def hexDigit (value : Nat) : Char :=
  Char.ofNat (if value < 10 then '0'.toNat + value else 'a'.toNat + (value - 10))

/-- The characters a single character is written as inside a literal. -/
def escapeChar (character : Char) : List Char :=
  match character with
  | '"' => ['\\', '"']
  | '\\' => ['\\', '\\']
  | '\n' => ['\\', 'n']
  | '\r' => ['\\', 'r']
  | '\t' => ['\\', 't']
  | _ =>
    let code := character.toNat
    if code = 0x08 then ['\\', 'b']
    else if code = 0x0C then ['\\', 'f']
    else if code < 0x20 then ['\\', 'u', '0', '0', hexDigit (code / 16), hexDigit (code % 16)]
    else [character]

/-- The literal of a text. -/
def escape (characters : List Char) : List Char :=
  characters.flatMap escapeChar

/-- The character behind an escape letter. -/
def escapedChar? : Char → Option Char
  | '"' => some '"'
  | '\\' => some '\\'
  | '/' => some '/'
  | 'b' => some (Char.ofNat 0x08)
  | 'f' => some (Char.ofNat 0x0C)
  | 'n' => some '\n'
  | 'r' => some '\r'
  | 't' => some '\t'
  | _ => none

/-- The number written by four hexadecimal digits. -/
def hexCode? (a b c d : Char) : Option Nat := do
  let a ← hexValue? a
  let b ← hexValue? b
  let c ← hexValue? c
  let d ← hexValue? d
  some (((a * 16 + b) * 16 + c) * 16 + d)

/-- Undo the escapes of a literal after `read`, the characters read so far in reverse order.

`high` is the first half of a surrogate pair whose second half has to follow. -/
def unescapeFrom (read : List Char) (high : Option Nat) : List Char → Option (List Char)
  | [] => if high.isSome then none else some read.reverse
  | '\\' :: 'u' :: a :: b :: c :: d :: rest =>
    match hexCode? a b c d, high with
    | none, _ => none
    | some code, none =>
      if 0xD800 ≤ code ∧ code < 0xDC00 then unescapeFrom read (some code) rest
      else if 0xDC00 ≤ code ∧ code < 0xE000 then none
      else unescapeFrom (Char.ofNat code :: read) none rest
    | some code, some first =>
      if 0xDC00 ≤ code ∧ code < 0xE000 then
        unescapeFrom (Char.ofNat (0x10000 + (first - 0xD800) * 0x400 + (code - 0xDC00)) :: read)
          none rest
      else none
  | '\\' :: letter :: rest =>
    match escapedChar? letter, high with
    | some character, none => unescapeFrom (character :: read) none rest
    | _, _ => none
  | character :: rest =>
    if high.isSome || character = '\\' then none else unescapeFrom (character :: read) none rest

/-- The text of a literal, if its escapes can be read. -/
def unescape? (literal : List Char) : Option (List Char) :=
  unescapeFrom [] none literal

end PrivateFootage.Json
