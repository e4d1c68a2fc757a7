import PrivateFootage.Aggregator
import PrivateFootage.Cache
import PrivateFootage.Footage
import PrivateFootage.Persistence
import PrivateFootage.Privacy.Sensitivity
import PrivateFootage.Window

/-!
# Queries

A query asks for one number for each window of a video. It is accepted only if its chunks fit into
the recording and its windows come out even. The results for chunks and the longest stay are
obtained once, from the stored results or the data, and kept with the query from then on; an attempt
that fails keeps nothing.
-/

namespace PrivateFootage

/-- What a query asks for, apart from the aggregator. -/
structure QuerySpec (α : Type) where
  video : String
  rendition : Rendition
  framesPerChunk : Nat
  chunksPerWindow : Nat
  function : WindowFunction
  privacy : Option (PrivacyParams α) := none
  smartAdjust : Bool := false
deriving DecidableEq, Repr

namespace QuerySpec

variable {α : Type} [Scalar α]

/-- Write a query specification as JSON. -/
def toJson (spec : QuerySpec α) : Json :=
  Json.ofMembers
    [("video", Json.ofText spec.video), ("source", spec.rendition.toJson),
      ("frames_per_chunk", Json.ofCount spec.framesPerChunk),
      ("chunks_per_window", Json.ofCount spec.chunksPerWindow),
      ("window_fn", spec.function.toJson),
      ("privacy", (spec.privacy.map PrivacyParams.toJson).getD .null),
      ("smart_adjust", .bool spec.smartAdjust)]

/-- Read a query specification from JSON. -/
def ofJson? (value : Json) : Option (QuerySpec α) := do
  match ← value.fields?
    ["video", "source", "frames_per_chunk", "chunks_per_window", "window_fn", "privacy",
      "smart_adjust"] with
  | [video, source, framesPerChunk, chunksPerWindow, function, privacy, smartAdjust] =>
    let count := Json.required? (Json.count? UInt64.size)
    some
      { video := ← Json.required? Json.text? video
        rendition := ← Json.required? Rendition.ofJson? source
        framesPerChunk := ← count framesPerChunk
        chunksPerWindow := ← count chunksPerWindow
        function := ← Json.required? WindowFunction.ofJson? function
        privacy := ← Json.defaulting? none (Json.optional? PrivacyParams.ofJson?) privacy
        smartAdjust := ← Json.defaulting? false Json.flag? smartAdjust }
  | _ => none

/-- Check that the rendition has rules and comes with the parameters it needs. -/
def checkRendition (spec : QuerySpec α) : Outcome Unit :=
  match spec.rendition with
  | .unmasked | .masked => .ok ()
  | .maskedRegions =>
    if spec.privacy.isSome then .ok () else .setting .regionQueryWithoutPrivacy
  | .reserved => .error (.unsupported .reserved)

/-- Check the privacy parameters, if there are any. -/
def checkPrivacy (spec : QuerySpec α) : Outcome Unit :=
  match spec.privacy with
  | some privacy => privacy.validate spec.rendition
  | none => .ok ()

/-- The number of whole chunks in the recording, if the query is acceptable. -/
def plan (spec : QuerySpec α) (config : Config) : Outcome Nat := do
  if spec.framesPerChunk = 0 then Outcome.setting .noFramesPerChunk
  if spec.chunksPerWindow = 0 then Outcome.setting .noChunksPerWindow
  spec.checkRendition
  spec.checkPrivacy
  let frames ← config.analysisFrames spec.video
  let chunks := frames / spec.framesPerChunk
  if chunks = 0 then Outcome.setting (.chunkTooLong spec.framesPerChunk frames)
  if chunks % spec.chunksPerWindow ≠ 0 then
    Outcome.setting (.unevenWindows chunks spec.chunksPerWindow)
  .ok chunks

/-- The scale of the noise for a given longest stay. -/
def noiseScale (spec : QuerySpec α) (persistence : α) (unit : NoiseUnit) : Outcome α :=
  match spec.privacy with
  | none => .setting .queryWithoutPrivacy
  | some privacy =>
    PrivateFootage.noiseScale privacy persistence spec.framesPerChunk spec.chunksPerWindow
      spec.function unit

/-- How the query turns results into windows. -/
def windowing (spec : QuerySpec α) : Windowing α where
  chunksPerWindow := spec.chunksPerWindow
  rendition := spec.rendition
  privacy := spec.privacy
  smartAdjust := spec.smartAdjust
  function := spec.function

end QuerySpec

/-- An accepted query with what it has obtained so far. -/
structure Query (α : Type) where
  spec : QuerySpec α
  aggregator : Aggregator α
  config : Config
  /-- Whole chunks in the recording. -/
  chunkCount : Nat
  results : Option (List (ChunkResult α)) := none
  persistence : Option α := none

namespace Query

variable {α : Type} [Scalar α]

/-- Accept a query, or say why not. -/
def ofSpec (config : Config) (spec : QuerySpec α) (aggregator : Aggregator α) :
    Outcome (Query α) := do
  let chunkCount ← spec.plan config
  .ok { spec, aggregator, config, chunkCount }

/-- The number of windows. -/
def windowCount (query : Query α) : Nat :=
  query.chunkCount / query.spec.chunksPerWindow

/-- The key of the query's chunk results. -/
def key (query : Query α) : String :=
  cacheKey query.spec.video query.spec.rendition query.spec.framesPerChunk
    query.aggregator.descriptor (query.spec.privacy.bind PrivacyParams.splitCount)

/-- The directory of stored results. -/
def cache (query : Query α) : Cache :=
  ⟨query.config.resultsDirectory⟩

/-- Aggregate chunks in order. Side by side, all chunks are read before the first is aggregated. -/
def aggregateChunks (aggregator : Aggregator α) (sideBySide : Bool)
    (chunks : List (Outcome (Chunk α))) : Outcome (List (ChunkValue α)) :=
  if sideBySide then do
    let chunks ← chunks.mapM id
    chunks.mapM aggregator.invoke
  else chunks.mapM fun chunk => chunk.bind aggregator.invoke

/-- Aggregate the chunks of all regions at one position. -/
def aggregateRegions (aggregator : Aggregator α) (chunks : List (Chunk α)) :
    Outcome (ChunkResult α) :=
  (chunks.mapM aggregator.invoke).map .split

/-- Compute the results of regions: each region on its own, or all in step. -/
def computeRegions (query : Query α) (footage : Footage) (store : Store) (splits : Nat) :
    Outcome (List (ChunkResult α)) :=
  let execution := query.config.execution
  if execution.parallelSplits then do
    let regions ← (List.range splits).mapM fun split => do
      aggregateChunks query.aggregator execution.parallelChunks
        (← footage.chunks store (some split))
    .ok ((joinRows regions).map .split)
  else do
    let rows ← footage.lockstepChunks store splits
    if execution.parallelChunks then
      let rows ← rows.mapM id
      rows.mapM (aggregateRegions query.aggregator)
    else rows.mapM fun row => row.bind (aggregateRegions query.aggregator)

/-- Compute the results of all chunks from the data. Where several things fail side by side, the error that
comes first in order is reported. -/
def compute (query : Query α) (store : Store) : Outcome (List (ChunkResult α)) := do
  let footage ← Footage.ofConfig query.config query.spec.video query.spec.rendition
    query.spec.framesPerChunk
  match query.spec.rendition with
  | .unmasked | .masked =>
    let values ← aggregateChunks query.aggregator query.config.execution.parallelChunks
      (← footage.chunks store none)
    .ok (values.map .single)
  | .maskedRegions =>
    match query.spec.privacy with
    | none => .setting .queryWithoutPrivacy
    | some privacy =>
      match privacy.splitCount with
      | none => .setting .queryWithoutSplitCount
      | some splits => query.computeRegions footage store splits
  | .reserved => .error (.unsupported .reserved)

/-- Obtain the results of all chunks: kept, stored, or else computed in the given way. -/
def obtainResults (query : Query α) (now : Instant) (store : Store)
    (compute : Unit → Outcome (List (ChunkResult α))) :
    Outcome (List (ChunkResult α)) × Query α × Store :=
  match query.results with
  | some results => (.ok results, query, store)
  | none =>
    match query.cache.getOrCompute now store query.key compute with
    | (.ok results, stored) => (.ok results, { query with results := some results }, stored)
    | (.error error, stored) => (.error error, query, stored)

/-- Obtain the results of all chunks: kept, stored or computed from the data. -/
def ensureResults (query : Query α) (now : Instant) (store : Store) :
    Outcome (List (ChunkResult α)) × Query α × Store :=
  query.obtainResults now store fun _ => query.compute store

/-- Obtain the longest stay: kept or measured. -/
def ensurePersistence (query : Query α) (store : Store) : Outcome α × Query α :=
  match query.persistence with
  | some longest => (.ok longest, query)
  | none =>
    let loaded := do
      let path ← persistencePath query.config query.spec.video query.spec.rendition
      loadLongestStay store path
    match loaded with
    | .ok longest => (.ok longest, { query with persistence := some longest })
    | .error error => (.error error, query)

/-- The windows of given results; a partial chunk at the end is left out. -/
def windowsOf (query : Query α) (results : List (ChunkResult α)) (afterSplit : Bool) :
    Outcome (List α) :=
  if results.length < query.chunkCount then
    .data (.missingResults query.chunkCount query.spec.video results.length)
  else query.spec.windowing.aggregate (results.take query.chunkCount) afterSplit

/-- The value of every window, before noise. -/
def windows (query : Query α) (now : Instant) (store : Store) (afterSplit : Bool) :
    Outcome (List α) × Query α × Store :=
  match query.ensureResults now store with
  | (.ok results, next, stored) => (next.windowsOf results afterSplit, next, stored)
  | (.error error, next, stored) => (.error error, next, stored)

/-- The scale of the noise for the longest stay measured. -/
def noiseScale (query : Query α) (store : Store) (unit : NoiseUnit) : Outcome α × Query α :=
  match query.ensurePersistence store with
  | (.ok longest, next) => (next.spec.noiseScale longest unit, next)
  | (.error error, next) => (.error error, next)

end Query

end PrivateFootage
