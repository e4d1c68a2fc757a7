import Std.Time.DateTime.Timestamp
import PrivateFootage.Command.Files

/-!
# The program

Takes the files that a command line can read into a store, carries the command line out and writes
back what it has changed.
-/

namespace PrivateFootage

/-- The path of a place. -/
def pathOf (place : List String) : String :=
  "/" ++ String.intercalate "/" place

/-- What stands at a place on disk. -/
def entryOnDisk? (place : List String) : IO (Option Entry) := do
  try
    let path ← IO.FS.realPath (pathOf place)
    if ← path.isDir then return some .directory
    return some (.file (← IO.FS.readBinFile path))
  catch _ => return none

/-- Take the entries on the way along the parts of a path into a store. -/
def takeAlong (store : Store) (here : List String) : List String → IO Store
  | [] => return store
  | part :: rest => do
    if part = "" ∨ part = "." then takeAlong store here rest
    else if part = ".." then takeAlong store here.dropLast rest
    else
      let next := here ++ [part]
      match ← entryOnDisk? next with
      | none => return store
      | some entry => takeAlong (store.put next entry) next rest

/-- Take the files at paths into a store. -/
def takeFiles (store : Store) (paths : List String) : IO Store :=
  paths.foldlM (fun store path => takeAlong store (store.origin path) (Path.parts path)) store

/-- Write an entry to disk, a file by way of a temporary one. -/
def writeEntry (place : List String) : Entry → IO Unit
  | .directory => IO.FS.createDirAll (pathOf place)
  | .file content => do
    let path := pathOf place
    let temporary := path ++ ".tmp"
    IO.FS.writeBinFile temporary content
    IO.FS.rename temporary path

/-- Whether a store already has an entry at a place. -/
def isUnchanged (before : Store) (place : List String) (entry : Entry) : Bool :=
  match before.entry? place, entry with
  | some (.file old), .file new => old.toList == new.toList
  | some .directory, .directory => true
  | _, _ => false

/-- Write back what a store has and another had not, parents before children. -/
def writeChanges (before after : Store) : IO Unit := do
  let changed := after.entries.filter fun (place, entry) => !isUnchanged before place entry
  let ordered := changed.mergeSort fun a b => a.1.length ≤ b.1.length
  ordered.forM fun (place, entry) => writeEntry place entry

/-- The variables of the environment. -/
def readEnvironment : IO Environment := do
  return {
    configHome := ← IO.getEnv "XDG_CONFIG_HOME"
    dataHome := ← IO.getEnv "XDG_DATA_HOME"
    home := ← IO.getEnv "HOME" }

/-- The present time. -/
def readClock : IO Instant := do
  let time ← Std.Time.Timestamp.now
  let duration := time.toDurationSinceUnixEpoch
  return ⟨duration.second.val, duration.nano.val.toNat⟩

/-- The store with the files that a command line can read. -/
def takeRequested (environment : Environment) (words : List String) : IO Store := do
  let here ← IO.currentDir
  let working := (Path.parts here.toString).filter (· ≠ "")
  let store ← takeAlong Store.empty [] working
  let store := { store with working }
  match Command.Request.ofWords words with
  | .invocation invocation =>
    let store ← takeFiles store (invocation.configFiles environment)
    match invocation.config environment store with
    | .ok config => takeFiles store (invocation.dataFiles config)
    | .error _ => return store
  | .help | .version | .fault => return store

/-- Carry out a command line on the files on disk. -/
def runCommandLine (words : List String) : IO UInt32 := do
  let environment ← readEnvironment
  let before ← takeRequested environment words
  let result := Command.execute environment (← readClock) before words
  writeChanges before result.store
  IO.print result.output
  if let some message := result.message then IO.eprintln s!"Error: {message}"
  if result.code = 2 then IO.eprintln Command.usageText
  return UInt32.ofNat result.code

end PrivateFootage

/-- Carry out the command line the program was started with. -/
def main (words : List String) : IO UInt32 :=
  PrivateFootage.runCommandLine words
