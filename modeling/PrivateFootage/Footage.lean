import Std.Data.TreeMap
import PrivateFootage.Chunk.Cut
import PrivateFootage.Config
import PrivateFootage.Detection.Row
import PrivateFootage.Table

/-!
# Footage

The detections of a video are kept in one file for each recorded hour, and in regions one for each
hour and region. A file has a row for each detection. The frames of an hour are the rows whose frame
index is sampled, grouped by index; the hours of a video follow one another, and the first file that
cannot be read ends the sequence with its error.
-/

namespace PrivateFootage

/-- Read the row of a record. -/
def readRow {α : Type} [Scalar α] (path : String) (record : Table.Record) : Outcome (Row α) :=
  match record.fields.mapM fun field => String.fromUTF8? ⟨field.toArray⟩ with
  | none => .error (.malformedFile path)
  | some fields =>
    match fields.mapM fun field => Written.read (Text.trim field.toList) with
    | .error fault => .data (.fieldInFile path record.line fault)
    | .ok written =>
      match Row.ofValues (written.map Scalar.ofWritten) with
      | .error fault => .data (.rowInFile path record.line fault)
      | .ok row => .ok row

/-- Read the rows of an hour, in file order. -/
def readHour {α : Type} [Scalar α] (store : Store) (path : String) : Outcome (List (Row α)) :=
  match store.read path with
  | .error .isADirectory => .error (.malformedFile path)
  | .error fault => .error (fault.toError path)
  | .ok content => (Table.records content.toList).mapM (readRow path)

/-- The rows of an hour by frame index, those of one frame in file order. -/
def rowsByIndex {α : Type} (rows : List (Row α)) : Std.TreeMap Nat (Frame α) :=
  rows.foldr
    (fun row frames => frames.alter row.index fun frame => some (row :: frame.getD []))
    ∅

/-- The sampled frames of an hour. No index is sampled twice, so a frame is looked up and not taken out. -/
def sampleHour {α : Type} (indices : List Nat) (rows : List (Row α)) : List (Frame α) :=
  let frames := rowsByIndex rows
  indices.map fun index => frames.getD index []

/-- The sampled frames of a sequence of hour files. -/
def readFrames {α : Type} [Scalar α] (store : Store) (indices : List Nat) :
    List String → List (Outcome (Frame α))
  | [] => []
  | path :: rest =>
    match readHour store path with
    | .ok rows => (sampleHour indices rows).map .ok ++ readFrames store indices rest
    | .error error => [.error error]

/-- The files of one video in one rendition, and how they are cut into chunks. -/
structure Footage where
  featuresDirectory : String
  maskedFeaturesDirectory : String
  video : String
  rendition : Rendition
  hours : List UInt32
  decimation : Decimation
  framesPerChunk : Nat

namespace Footage

/-- The footage of a video. -/
def ofConfig (config : Config) (video : String) (rendition : Rendition) (framesPerChunk : Nat) :
    Outcome Footage := do
  if framesPerChunk = 0 then Outcome.setting .noFramesPerChunk
  let hours ← config.hours video
  let decimation ← config.decimation
  .ok
    { featuresDirectory := config.featuresDirectory
      maskedFeaturesDirectory := config.maskedFeaturesDirectory
      video, rendition, hours, decimation, framesPerChunk }

/-- The file of an hour, and of a region where there are regions. -/
def hourPath (footage : Footage) (hour : UInt32) (split : Option Nat) : Outcome String :=
  let place (directory ending : String) : String :=
    Path.join (Path.join directory footage.video) s!"{footage.video}{hour.toNat}{ending}.csv"
  match footage.rendition, split with
  | .unmasked, none => .ok (place footage.featuresDirectory "")
  | .masked, none => .ok (place footage.maskedFeaturesDirectory "")
  | .maskedRegions, some region => .ok (place footage.maskedFeaturesDirectory s!"_m{region}")
  | .maskedRegions, none => .setting .regionFileWithoutSplit
  | .unmasked, some _ => .setting (.noRegions .unmasked)
  | .masked, some _ => .setting (.noRegions .masked)
  | .reserved, _ => .error (.unsupported .reserved)

/-- The sampled frames of all hours. -/
def frames {α : Type} [Scalar α] (footage : Footage) (store : Store) (split : Option Nat) :
    Outcome (List (Outcome (Frame α))) := do
  let paths ← footage.hours.mapM fun hour => footage.hourPath hour split
  .ok (readFrames store footage.decimation.frames paths)

/-- The chunks of the whole scene or of one region. -/
def chunks {α : Type} [Scalar α] (footage : Footage) (store : Store) (split : Option Nat) :
    Outcome (List (Outcome (Chunk α))) :=
  (footage.frames store split).map (readChunks footage.framesPerChunk)

/-- The chunks of all regions, read in step. -/
def lockstepChunks {α : Type} [Scalar α] (footage : Footage) (store : Store) (splits : Nat) :
    Outcome (List (Outcome (List (Chunk α)))) := do
  let regions ← (List.range splits).mapM fun split => footage.chunks store (some split)
  .ok (lockstep regions)

end Footage

end PrivateFootage
