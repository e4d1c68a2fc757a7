import PrivateFootage.Decimal.Reading
import PrivateFootage.Text.Split

/-!
# Options on a command line

A command line is read word by word. A word with two dashes names an option, and its value follows
after `=` or as the next word; a value that starts with a dash has to follow after `=`. A word with
one dash holds the letters of flags. Two dashes alone end the options. Everything else is a plain
word, at which reading stops.

An option may be given once, unless it makes up a list; a list takes values separated by commas and
may be given again. Values are checked where they stand, so the first fault decides.
-/

namespace PrivateFootage.Command

/-- The form of the value of an option. -/
inductive ValueForm where
  | text
  /-- A text that is not empty. -/
  | path
  | choice (names : List String)
  | number
  /-- A natural number below a limit; if `signed`, zero may also be written with a minus sign. -/
  | count (limit : Nat) (signed : Bool)
deriving DecidableEq, Repr

/-- What an option does. -/
inductive OptionKind where
  | flag
  | single (form : ValueForm)
  | list (form : ValueForm)
  | help
  | version
deriving DecidableEq, Repr

/-- An option of a command. -/
structure OptionRule where
  name : String
  kind : OptionKind
  letter : Option Char := none
deriving DecidableEq, Repr

/-- The options given so far, in order, with their values; a flag has an empty value. -/
abbrev Given := List (String × String)

/-- How reading a command line ended. -/
inductive Reading where
  | finished (given : Given)
  | word (given : Given) (word : String) (rest : List String)
  | help
  | version
  | fault
deriving DecidableEq, Repr

/-- Read a natural number below a limit. -/
def readCount? (limit : Nat) (signed : Bool) (text : String) : Option Nat :=
  let (negative, digits) := Decimal.splitSign text.toList
  let value := Decimal.readDigits digits 0
  if digits.isEmpty || !digits.all Decimal.isDigit then none
  else if negative && (!signed || value ≠ 0) then none
  else if value < limit then some value
  else none

/-- Whether a text is a value of a form. -/
def ValueForm.accepts (text : String) : ValueForm → Bool
  | .text => true
  | .path => !text.isEmpty
  | .choice names => names.contains text
  | .number => (Written.read text.toList).isOk
  | .count limit signed => (readCount? limit signed text).isSome

namespace Given

/-- Whether an option is given. -/
def has (given : Given) (name : String) : Bool :=
  given.any fun option => option.1 = name

/-- The values of an option. -/
def values (given : Given) (name : String) : List String :=
  (given.filter fun option => option.1 = name).map Prod.snd

/-- The value of an option. -/
def value? (given : Given) (name : String) : Option String :=
  (given.values name).head?

/-- Add an option that may be given once. -/
def addOnce? (given : Given) (name value : String) : Option Given :=
  if given.has name then none else some (given ++ [(name, value)])

/-- Add an option with a value. -/
def add? (given : Given) (rule : OptionRule) (value : String) : Option Given :=
  match rule.kind with
  | .single form => if form.accepts value then given.addOnce? rule.name value else none
  | .list form =>
    let values := Text.splitString ',' value
    if values.all form.accepts then some (given ++ values.map fun value => (rule.name, value))
    else none
  | .flag | .help | .version => none

end Given

/-- Read the letters of flags. An ending other than `finished` ends the whole reading. -/
def readLetters (rules : List OptionRule) (given : Given) : List Char → Reading
  | [] => .finished given
  | letter :: rest =>
    match rules.find? fun rule => rule.letter = some letter with
    | some ⟨_, .help, _⟩ => .help
    | some ⟨_, .version, _⟩ => .version
    | some ⟨name, .flag, _⟩ =>
      match given.addOnce? name "" with
      | some given => readLetters rules given rest
      | none => .fault
    | _ => .fault

/-- Split a word at its first equals sign. -/
def splitValue (characters : List Char) : String × Option String :=
  let name := characters.takeWhile (· ≠ '=')
  match characters.dropWhile (· ≠ '=') with
  | [] => (String.ofList name, none)
  | _ :: value => (String.ofList name, some (String.ofList value))

/-- Whether a word is taken for options and not for a value. -/
def looksLikeOption (word : String) : Bool :=
  match word.toList with
  | '-' :: _ :: _ => true
  | _ => false

/-- Read options up to the first plain word. -/
def readOptions (rules : List OptionRule) (given : Given) : List String → Reading
  | [] => .finished given
  | word :: rest =>
    match word.toList with
    | ['-', '-'] => if rest.isEmpty then .finished given else .fault
    | '-' :: '-' :: characters =>
      let (name, value?) := splitValue characters
      match rules.find? fun rule => rule.name = name with
      | none => .fault
      | some rule =>
        match rule.kind, value? with
        | .help, none => .help
        | .version, none => .version
        | .flag, none =>
          match given.addOnce? name "" with
          | some given => readOptions rules given rest
          | none => .fault
        | .help, some _ | .version, some _ | .flag, some _ => .fault
        | .single _, some value | .list _, some value =>
          match given.add? rule value with
          | some given => readOptions rules given rest
          | none => .fault
        | .single _, none | .list _, none =>
          match rest with
          | [] => .fault
          | value :: rest =>
            if looksLikeOption value then .fault
            else match given.add? rule value with
              | some given => readOptions rules given rest
              | none => .fault
    | '-' :: letter :: letters =>
      match readLetters rules given (letter :: letters) with
      | .finished given => readOptions rules given rest
      | ending => ending
    | _ => .word given word rest

end PrivateFootage.Command
