import PrivateFootage.Error
import PrivateFootage.Store.Path

/-!
# Stored files

A store is a tree of directories and files, held as a list of entries keyed by the parts of their
absolute paths. The root directory is always there, and relative paths start from a working
directory. Programs read and write files through the operations below; each gives the new store or
the reason why it cannot be done.

A path is followed part by part. Every part but the last has to be a directory that exists, `.` and
empty parts stay in place, and `..` goes up. A name may have up to 255 bytes.
-/

namespace PrivateFootage

/-- What stands at a path. -/
inductive Entry where
  | file (content : ByteArray)
  | directory

/-- A tree of directories and files. -/
structure Store where
  entries : List (List String × Entry)
  /-- The place of the directory that relative paths start from. -/
  working : List String := []

namespace Store

/-- The store with nothing but its root directory. -/
def empty : Store := { entries := [] }

/-- What stands at a place, given by its parts. -/
def entry? (store : Store) (place : List String) : Option Entry :=
  if place.isEmpty then some .directory else store.entries.lookup place

/-- Put an entry at a place, replacing what stood there. -/
def put (store : Store) (place : List String) (entry : Entry) : Store :=
  { store with entries := (place, entry) :: store.entries.filter fun (other, _) => other ≠ place }

/-- Take the entry at a place away. -/
def erase (store : Store) (place : List String) : Store :=
  { store with entries := store.entries.filter fun (other, _) => other ≠ place }

/-- Whether a part of a path can name an entry. -/
def isName (part : String) : Bool :=
  part.utf8ByteSize ≤ 255 && !part.toList.contains (Char.ofNat 0)

/-- Go from a directory along the parts of a path to the place it names. -/
def follow (store : Store) (here : List String) : List String → Except FileFault (List String)
  | [] => .ok here
  | part :: rest =>
    match store.entry? here with
    | none => .error .missing
    | some (.file _) => .error .notADirectory
    | some .directory =>
      if part = "" ∨ part = "." then store.follow here rest
      else if part = ".." then store.follow here.dropLast rest
      else if isName part then store.follow (here ++ [part]) rest
      else .error .badName

/-- The place of the directory a path starts from. -/
def origin (store : Store) (path : String) : List String :=
  if Path.isAbsolute path then [] else store.working

/-- The place a path names, if the directories on the way to it exist. -/
def locate (store : Store) (path : String) : Except FileFault (List String) :=
  if path.isEmpty then .error .missing else store.follow (store.origin path) (Path.parts path)

/-- Whether anything stands at a path. -/
def contains (store : Store) (path : String) : Bool :=
  match store.locate path with
  | .ok place => (store.entry? place).isSome
  | .error _ => false

/-- The bytes of a file. -/
def read (store : Store) (path : String) : Except FileFault ByteArray := do
  match store.entry? (← store.locate path) with
  | some (.file content) => .ok content
  | some .directory => .error .isADirectory
  | none => .error .missing

/-- The text of a file. -/
def readText (store : Store) (path : String) : Except FileFault String := do
  match String.fromUTF8? (← store.read path) with
  | some text => .ok text
  | none => .error .notText

/-- Write a file, replacing one that is there. -/
def write (store : Store) (path : String) (content : ByteArray) : Except FileFault Store := do
  let place ← store.locate path
  match store.entry? place with
  | some .directory => .error .isADirectory
  | _ => .ok (store.put place (.file content))

/-- Go from a directory along the parts of a path, making the directories that are missing. -/
def makeAlong (store : Store) (here : List String) : List String → Except FileFault Store
  | [] => .ok store
  | part :: rest =>
    if part = "" ∨ part = "." then store.makeAlong here rest
    else if part = ".." then store.makeAlong here.dropLast rest
    else if isName part then
      let next := here ++ [part]
      match store.entry? next with
      | some .directory => store.makeAlong next rest
      | some (.file _) => .error (if rest.isEmpty then .alreadyExists else .notADirectory)
      | none => (store.put next .directory).makeAlong next rest
    else .error .badName

/-- Make a directory and the directories on the way to it. -/
def makeDirectory (store : Store) (path : String) : Except FileFault Store :=
  if path.isEmpty then .ok store else store.makeAlong (store.origin path) (Path.parts path)

/-- Take a file away; tells whether there was one. -/
def removeFile (store : Store) (path : String) : Bool × Store :=
  match store.locate path with
  | .ok place =>
    match store.entry? place with
    | some (.file _) => (true, store.erase place)
    | _ => (false, store)
  | .error _ => (false, store)

/-- The sorted names in a directory; a path without a directory has none. -/
def names (store : Store) (path : String) : List String :=
  match store.locate path with
  | .ok place =>
    match store.entry? place with
    | some .directory =>
      let inside := store.entries.filterMap fun (other, _) =>
        if other.length = place.length + 1 ∧ place.isPrefixOf other then other.getLast? else none
      inside.mergeSort fun a b => decide (a ≤ b)
    | _ => []
  | .error _ => []

end Store

/-- A failed file operation as an error: a missing file is named by its path. -/
def FileFault.toError (path : String) : FileFault → Error
  | .missing => .fileNotFound path
  | fault => .file fault

end PrivateFootage
