import PrivateFootage.Text.Split

/-!
# Paths

A path is a text whose parts are separated by `/`. A path that starts with `/` is absolute, and
joining it to another path gives it alone.
-/

namespace PrivateFootage.Path

/-- Whether a path starts from the root directory. -/
def isAbsolute (path : String) : Bool :=
  path.toList.head? = some '/'

/-- Extend a path by a relative one; an absolute one replaces it. -/
def join (base part : String) : String :=
  if isAbsolute part || base.isEmpty then part
  else if base.toList.getLast? = some '/' then base ++ part
  else base ++ "/" ++ part

/-- The parts of a path, empty ones included. -/
def parts (path : String) : List String :=
  Text.splitString '/' path

/-- The path without its last part and the slashes before it. -/
def parent (path : String) : String :=
  let reversed := (path.toList.reverse.dropWhile (· = '/')).dropWhile (· ≠ '/')
  let stripped := reversed.dropWhile (· = '/')
  if stripped.isEmpty && !reversed.isEmpty then "/" else String.ofList stripped.reverse

end PrivateFootage.Path
