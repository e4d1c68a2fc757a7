import PrivateFootage.Config

/-!
# Persistence

How long objects stay in the scene of a video has been measured, and is kept as a JSON list of
numbers of frames for each video and kind of rendition. The longest stay is what noise is
calibrated to.
-/

namespace PrivateFootage

/-- The file with the measured stays of a video. -/
def persistencePath (config : Config) (video : String) (rendition : Rendition) :
    Outcome String := do
  let kind ← rendition.persistenceKind
  -- Stays were measured on squares of ten pixels.
  .ok (Path.join (Path.join config.persistenceDirectory video) s!"{video}10_{kind}.json")

/-- The longest of a list of stays. -/
def longestStay? {α : Type} [Scalar α] : List α → Option α
  | [] => none
  | first :: rest => some (rest.foldl Scalar.larger first)

/-- Read the longest stay from a file. -/
def loadLongestStay {α : Type} [Scalar α] (store : Store) (path : String) : Outcome α := do
  let content ← (store.readText path).mapError (FileFault.toError path)
  match (Json.parse? content).bind (Json.list? Json.scalar?) with
  | none => .error .json
  | some stays =>
    match longestStay? stays with
    | some longest => .ok longest
    | none => .data (.emptyDistribution path)

end PrivateFootage
