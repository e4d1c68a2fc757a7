import PrivateFootage.Json.Basic

/-!
# Writing JSON text

A value is laid out as tokens with line breaks between them, then spelled. The compact layout has
no breaks. The indented layout puts every item and member on a line of its own, two spaces deeper
than its container, with one space after the colon, and keeps empty containers closed up.
-/

namespace PrivateFootage.Json

/-- A token or a blank of a layout. -/
inductive Piece where
  | token (piece : Token)
  | lineBreak (depth : Nat)
  | space
deriving DecidableEq, Repr

/-- The two layouts. -/
inductive Style where
  | compact
  | indented
deriving DecidableEq, Repr

/-- The characters of a token. -/
def Token.spell : Token → List Char
  | .openArray => ['[']
  | .closeArray => [']']
  | .openObject => ['\x7b']
  | .closeObject => ['\x7d']
  | .comma => [',']
  | .colon => [':']
  | .word letters => letters
  | .number literal => literal
  | .string literal => '"' :: literal ++ ['"']

/-- The characters of a piece. -/
def Piece.spell : Piece → List Char
  | .token piece => piece.spell
  | .lineBreak depth => '\n' :: List.replicate (2 * depth) ' '
  | .space => [' ']

/-- Put a line break on a layout that is held in reverse order. -/
def Style.breakLine (style : Style) (depth : Nat) (laid : List Piece) : List Piece :=
  match style with
  | .compact => laid
  | .indented => .lineBreak depth :: laid

/-- Put the separator between a name and its value on a layout held in reverse order. -/
def Style.afterName (style : Style) (laid : List Piece) : List Piece :=
  match style with
  | .compact => .token .colon :: laid
  | .indented => .space :: .token .colon :: laid

mutual

/-- Lay out a value after the pieces laid so far, which are held in reverse order. -/
def lay (style : Style) (depth : Nat) (laid : List Piece) : Json → List Piece
  | .null => .token (.word "null".toList) :: laid
  | .bool true => .token (.word "true".toList) :: laid
  | .bool false => .token (.word "false".toList) :: laid
  | .number literal => .token (.number literal) :: laid
  | .string literal => .token (.string literal) :: laid
  | .array [] => .token .closeArray :: .token .openArray :: laid
  | .array (first :: rest) =>
    let opened := style.breakLine (depth + 1) (.token .openArray :: laid)
    let filled := layItems style (depth + 1) (lay style (depth + 1) opened first) rest
    .token .closeArray :: style.breakLine depth filled
  | .object [] => .token .closeObject :: .token .openObject :: laid
  | .object ((name, value) :: rest) =>
    let opened := style.breakLine (depth + 1) (.token .openObject :: laid)
    let named := style.afterName (.token (.string name) :: opened)
    let filled := layMembers style (depth + 1) (lay style (depth + 1) named value) rest
    .token .closeObject :: style.breakLine depth filled

/-- Lay out the items after the first of an array. -/
def layItems (style : Style) (depth : Nat) (laid : List Piece) : List Json → List Piece
  | [] => laid
  | item :: rest =>
    let separated := style.breakLine depth (.token .comma :: laid)
    layItems style depth (lay style depth separated item) rest

/-- Lay out the members after the first of an object. -/
def layMembers (style : Style) (depth : Nat) (laid : List Piece) :
    List (List Char × Json) → List Piece
  | [] => laid
  | (name, value) :: rest =>
    let separated := style.breakLine depth (.token .comma :: laid)
    let named := style.afterName (.token (.string name) :: separated)
    layMembers style depth (lay style depth named value) rest

end

/-- The text of a value in a layout. -/
def render (style : Style) (value : Json) : String :=
  String.ofList ((lay style 0 [] value).reverse.flatMap Piece.spell)

end PrivateFootage.Json
