import PrivateFootage.Decimal.Reading
import PrivateFootage.Rendition

/-!
# What can go wrong

Every failure of the library is a value of `Error`: a fault in what was asked for, a fault met while
working through data, a failure of the aggregator, a rendition without rules, a file that cannot be
used, or a chunk that no memory can hold. The wording of each is given once, by `Error.message`.

Values that appear in a message are carried as the text that is shown. What a reader of files says
about the place where it stopped is not carried; `Error.wording` has it as a parameter.
-/

namespace PrivateFootage

/-- What a name was looked up as. -/
inductive Vocabulary where
  | splitCombination
  | windowFunction
  | dataSource
  | noiseUnit
deriving DecidableEq, Repr

/-- The words for what a name was looked up as. -/
def Vocabulary.words : Vocabulary → String
  | .splitCombination => "split combination"
  | .windowFunction => "window function"
  | .dataSource => "data source"
  | .noiseUnit => "noise unit"

/-- The two ends of a value range. -/
inductive Side where
  | lower
  | upper
deriving DecidableEq, Repr

/-- The word for an end of a value range. -/
def Side.word : Side → String
  | .lower => "lower"
  | .upper => "upper"

/-- A fault in the settings of a computation. -/
inductive SettingFault where
  | zeroRate (native analysis : Nat)
  | analysisRateAboveNative (native analysis : Nat)
  | unknownVideo (name : String)
  | unknownName (vocabulary : Vocabulary) (name : String)
  | epsilonNotPositive (shown : String)
  | noSegments
  | emptyBound (side : Side)
  | nonFiniteBound (side : Side)
  | boundCount (side : Side) (entries splits : Nat)
  | boundsCrossed (lower upper : String)
  | queryWithoutSplitCount
  | queryWithoutPrivacy
  | regionQueryWithoutPrivacy
  | noFramesPerChunk
  | noChunksPerWindow
  | regionFileWithoutSplit
  | noRegions (rendition : Rendition)
  | noiseScale (shown : String)
  | ribbonConfidence (shown : String)
  | persistence (shown : String)
  | noSensitivityBound (function : String)
  | unevenWindows (chunks perWindow : Nat)
  | windowWithoutPrivacy
  | windowWithoutSplitCount
  | noBoundForSplit (split : Nat)
  | chunkTooLong (framesPerChunk frames : Nat)
deriving DecidableEq, Repr

/-- The wording of a settings fault. -/
def SettingFault.message : SettingFault → String
  | .zeroRate native analysis =>
    s!"Frame rates must be positive (native={native}, analysis={analysis})"
  | .analysisRateAboveNative native analysis =>
    s!"Analysis rate {analysis} exceeds native rate {native}"
  | .unknownVideo name => s!"Unknown video '{name}'"
  | .unknownName vocabulary name => s!"Unknown {vocabulary.words} '{name}'"
  | .epsilonNotPositive shown => s!"Epsilon must be positive, got {shown}"
  | .noSegments => "k_segments must be at least 1"
  | .emptyBound side => s!"Empty {side.word} bound"
  | .nonFiniteBound side => s!"Non-finite {side.word} bound"
  | .boundCount side entries splits =>
    s!"{side.word} bound has {entries} entries for {splits} splits"
  | .boundsCrossed lower upper => s!"Lower bound {lower} exceeds upper bound {upper}"
  | .queryWithoutSplitCount => "Spatial-hybrid queries need a positive split count"
  | .queryWithoutPrivacy => "Query has no privacy parameters"
  | .regionQueryWithoutPrivacy => "Spatial-hybrid queries need privacy parameters"
  | .noFramesPerChunk => "frames_per_chunk must be positive"
  | .noChunksPerWindow => "chunks_per_window must be positive"
  | .regionFileWithoutSplit => "Spatial-hybrid raw files are per split; no split given"
  | .noRegions rendition => s!"Data source {rendition.tag} has no spatial splits"
  | .noiseScale shown => s!"Noise scale must be finite and non-negative, got {shown}"
  | .ribbonConfidence shown => s!"Ribbon confidence must lie in (0, 1), got {shown}"
  | .persistence shown => s!"Persistence must be a non-negative frame count, got {shown}"
  | .noSensitivityBound function => s!"No sensitivity bound for window function '{function}'"
  | .unevenWindows chunks perWindow =>
    s!"{chunks} chunks do not divide into windows of {perWindow}"
  | .windowWithoutPrivacy => "Spatial-hybrid windows need privacy parameters"
  | .windowWithoutSplitCount => "Spatial-hybrid windows need a split count"
  | .noBoundForSplit split =>
    s!"Clipping before combination needs per-split bounds (split {split})"
  | .chunkTooLong framesPerChunk frames =>
    s!"Chunks of {framesPerChunk} frames do not fit in {frames} analyzed frames"

/-- A fault in a single detection row. -/
inductive RowFault where
  | tooShort (fields : Nat)
  | frameIndex (shown : String)
deriving DecidableEq, Repr

/-- The wording of a row fault. -/
def RowFault.message : RowFault → String
  | .tooShort fields => s!"Detection row has {fields} fields, expected at least 6"
  | .frameIndex shown => s!"Detection row has invalid frame index {shown}"

/-- A fault met while working through data. -/
inductive DataFault where
  | row (fault : RowFault)
  | fieldInFile (path : String) (line : Nat) (fault : NumberFault)
  | rowInFile (path : String) (line : Nat) (fault : RowFault)
  | unexpectedSplits (rendition : Rendition)
  | missingSplits
  | splitCount (found expected : Nat)
  | corruptRecord (path : String)
  | zeroTruth
  | noReleases
  | emptyDistribution (path : String)
  | missingResults (expected : Nat) (video : String) (found : Nat)
  | reported (text : String)
deriving DecidableEq, Repr

/-- The heading of every data fault. -/
def DataFault.heading : String := "Processing error: "

/-- The wording of a data fault. -/
def DataFault.message : DataFault → String
  | .row fault => fault.message
  | .fieldInFile path line fault => s!"{path}:{line}: {fault.message}"
  | .rowInFile path line fault => s!"{path}:{line}: {heading}{fault.message}"
  | .unexpectedSplits rendition => s!"Unexpected per-split chunk result for {rendition.tag}"
  | .missingSplits => "Expected per-split chunk results for SPATIAL_HYBRID"
  | .splitCount found expected => s!"Chunk has {found} splits, expected {expected}"
  | .corruptRecord path => s!"Corrupt cache record {path}"
  | .zeroTruth => "Accuracy is undefined for a zero ground truth"
  | .noReleases => "No releases to score"
  | .emptyDistribution path => s!"Empty persistence distribution {path}"
  | .missingResults expected video found =>
    s!"Expected {expected} chunk results for {video}, found {found}"
  | .reported text => text

/-- Why a file operation failed, when the file is not simply missing. -/
inductive FileFault where
  | notADirectory
  | isADirectory
  | alreadyExists
  | notText
  | badName
  | missing
deriving DecidableEq, Repr

/-- The wording of a file fault. -/
def FileFault.message : FileFault → String
  | .notADirectory => "Not a directory"
  | .isADirectory => "Is a directory"
  | .alreadyExists => "File exists"
  | .notText => "stream did not contain valid UTF-8"
  | .badName => "Invalid file name"
  | .missing => "No such file or directory"

/-- A failure of the library. -/
inductive Error where
  | setting (fault : SettingFault)
  | data (fault : DataFault)
  | aggregator (text : String)
  | unsupported (rendition : Rendition)
  | fileNotFound (path : String)
  | malformedFile (path : String)
  | file (fault : FileFault)
  | json
  /-- Room for more items than memory can have. It ends the program, not only the computation. -/
  | capacity
deriving DecidableEq, Repr

/-- The wording of an error, up to the remark of a reader. -/
def Error.message : Error → String
  | .setting fault => s!"Configuration error: {fault.message}"
  | .data fault => DataFault.heading ++ fault.message
  | .aggregator text => s!"Aggregator error: {text}"
  | .unsupported rendition =>
    s!"Unsupported operation: Data source {rendition.tag} is not implemented"
  | .fileNotFound path => s!"File not found: {path}"
  | .malformedFile path => s!"Malformed raw detection file {path}"
  | .file fault => fault.message
  | .json => "invalid JSON document"
  | .capacity => "capacity overflow"

/-- The wording of an error, with the remark of the reader or the system that noticed it. -/
def Error.wording (remark : String) : Error → String
  | .data (.corruptRecord path) => (Error.data (.corruptRecord path)).message ++ ": " ++ remark
  | .malformedFile path => (Error.malformedFile path).message ++ ": " ++ remark
  | .file _ | .json => remark
  | error => error.message

/-- The result of a computation that may fail. -/
abbrev Outcome (α : Type) := Except Error α

/-- Fail with a fault in the settings. -/
def Outcome.setting {α : Type} (fault : SettingFault) : Outcome α :=
  .error (.setting fault)

/-- Fail with a fault in the data. -/
def Outcome.data {α : Type} (fault : DataFault) : Outcome α :=
  .error (.data fault)

/-- Look a given name up as a rendition. -/
def Rendition.lookup (text : String) : Outcome Rendition :=
  let form := Rendition.lookupForm text
  match Rendition.ofName? form with
  | some rendition => .ok rendition
  | none => .setting (.unknownName .dataSource form)

/-- The word for the persistence distribution measured for a rendition. -/
def Rendition.persistenceKind : Rendition → Outcome String
  | .unmasked => .ok "orig"
  | .maskedRegions | .masked => .ok "hybrid"
  | .reserved => .error (.unsupported .reserved)

end PrivateFootage
