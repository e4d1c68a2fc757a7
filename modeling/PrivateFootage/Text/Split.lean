/-!
# Splitting a text at a character
-/

namespace PrivateFootage.Text

/-- The pieces between the occurrences of a separator, empty ones included. -/
def split (separator : Char) : List Char → List (List Char)
  | [] => [[]]
  | character :: rest =>
    if character = separator then [] :: split separator rest
    else match split separator rest with
      | [] => [[character]]
      | piece :: pieces => (character :: piece) :: pieces

/-- The pieces of a string between the occurrences of a separator. -/
def splitString (separator : Char) (text : String) : List String :=
  (split separator text.toList).map String.ofList

end PrivateFootage.Text
