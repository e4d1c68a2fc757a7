import PrivateFootage.Chunk.Value
import PrivateFootage.Instant
import PrivateFootage.Store.Basic

/-!
# Stored chunk results

The results of a computation over chunks are kept in a directory, one JSON record for each key. The
key names the video, the rendition, the chunk length, the aggregator and, for regions, how many
there are. A record is only written whole, so a reader finds the old one or the new one.
-/

namespace PrivateFootage

/-- The key of a sequence of chunk results. -/
def cacheKey (video : String) (rendition : Rendition) (framesPerChunk : Nat) (descriptor : String)
    (splitCount : Option Nat) : String :=
  let base := s!"{video}_{rendition.tag}_FPC-{framesPerChunk}_{descriptor}"
  match rendition.isSplit, splitCount with
  | true, some splits => s!"{base}_NSPLIT-{splits}"
  | _, _ => base

/-- A stored sequence of chunk results. -/
structure CacheRecord (α : Type) where
  key : String := ""
  computedAt : Option Instant := none
  results : List (ChunkResult α)
deriving DecidableEq, Repr

namespace CacheRecord

variable {α : Type} [Scalar α]

/-- Write a record as JSON. -/
def toJson (record : CacheRecord α) : Json :=
  Json.ofMembers
    [("key", Json.ofText record.key),
      ("computed_at", (record.computedAt.map fun time => Json.ofText time.text).getD .null),
      ("results", .array (record.results.map ChunkResult.toJson))]

/-- Read a record from JSON. -/
def ofJson? (value : Json) : Option (CacheRecord α) := do
  match ← value.fields? ["key", "computed_at", "results"] with
  | [key, time, results] =>
    let readTime (value : Json) : Option Instant := value.text?.bind Instant.read?
    -- The record and its list of results are two levels of nesting.
    let readResult := ChunkResult.ofJson? (ChunkResult.maxDepth - 2)
    some
      { key := ← Json.defaulting? "" Json.text? key
        computedAt := ← Json.defaulting? none (Json.optional? readTime) time
        results := ← Json.required? (Json.list? readResult) results }
  | _ => none

/-- The text of a record. -/
def text (record : CacheRecord α) : String :=
  record.toJson.render .compact

/-- Read a record from its text. -/
def ofText? (text : String) : Option (CacheRecord α) :=
  (Json.parse? text).bind ofJson?

end CacheRecord

/-- A directory of stored chunk results. -/
structure Cache where
  directory : String
deriving DecidableEq, Repr

namespace Cache

variable {α : Type} [Scalar α]

/-- The file of a key. -/
def path (cache : Cache) (key : String) : String :=
  Path.join cache.directory (key ++ ".json")

/-- The results stored under a key, if there are any. -/
def load (cache : Cache) (store : Store) (key : String) : Outcome (Option (List (ChunkResult α))) :=
  let path := cache.path key
  match store.readText path with
  | .error .missing => .ok none
  | .error fault => .error (fault.toError path)
  | .ok text =>
    match (CacheRecord.ofText? text : Option (CacheRecord α)) with
    | some record => .ok (some record.results)
    | none => .data (.corruptRecord path)

/-- Store results under a key. The directory is made if it is missing, and stays when the record
cannot be put into it. -/
def save (cache : Cache) (now : Instant) (store : Store) (key : String)
    (results : List (ChunkResult α)) : Outcome Unit × Store :=
  match store.makeDirectory cache.directory with
  | .error fault => (.error (fault.toError cache.directory), store)
  | .ok prepared =>
    let record : CacheRecord α := ⟨key, some now, results⟩
    match prepared.write (cache.path key) record.text.toUTF8 with
    | .error fault => (.error (.file fault), prepared)
    | .ok written => (.ok (), written)

/-- The results stored under a key, or else computed ones, which are then stored. Nothing is stored
when computing fails. -/
def getOrCompute (cache : Cache) (now : Instant) (store : Store) (key : String)
    (compute : Unit → Outcome (List (ChunkResult α))) : Outcome (List (ChunkResult α)) × Store :=
  match cache.load store key with
  | .error error => (.error error, store)
  | .ok (some results) => (.ok results, store)
  | .ok none =>
    match compute () with
    | .error error => (.error error, store)
    | .ok results =>
      match cache.save now store key results with
      | (.ok (), stored) => (.ok results, stored)
      | (.error error, prepared) => (.error error, prepared)

end Cache

end PrivateFootage
