import PrivateFootage.Catalog
import PrivateFootage.Decimation
import PrivateFootage.Store.Basic

/-!
# Configuration

A configuration says where the data is, at which rates it was recorded and is analysed, which
videos there are, how work is ordered and what is logged. It is kept as a JSON file. Without an
explicit path the file is looked for below the user's configuration directory, and a file that is
missing or cannot be read there counts as the default configuration.
-/

namespace PrivateFootage

/-- Whether chunks and regions are worked on side by side. -/
structure Execution where
  parallelChunks : Bool := false
  parallelSplits : Bool := false
deriving DecidableEq, Repr

/-- What is logged, and whether as JSON. -/
structure Logging where
  level : String := "info"
  json : Bool := false
deriving DecidableEq, Repr

/-- The settings shared by all queries. -/
structure Config where
  dataRoot : String
  nativeRate : UInt32
  analysisRate : UInt32
  videos : Catalog
  execution : Execution := {}
  logging : Logging := {}
deriving DecidableEq

/-- The variables of the environment that say where a user's files are. -/
structure Environment where
  configHome : Option String := none
  dataHome : Option String := none
  home : Option String := none

namespace Environment

/-- The home directory, or the directory for temporary files if none is set. -/
def homeOrTemporary (environment : Environment) : String :=
  environment.home.getD "/tmp"

/-- The standard place of the configuration file. -/
def configPath (environment : Environment) : String :=
  let base := environment.configHome.getD (Path.join environment.homeOrTemporary ".config")
  Path.join (Path.join base "privid") "config.json"

/-- The standard place of the data. -/
def dataRoot (environment : Environment) : String :=
  let base := environment.dataHome.getD
    (Path.join (Path.join environment.homeOrTemporary ".local") "share")
  Path.join base "privid"

end Environment

namespace Config

/-- The hours from `first` to `last`. -/
def hourRange (first last : Nat) : List UInt32 :=
  (List.range (last + 1 - first)).map fun offset => UInt32.ofNat (first + offset)

/-- The videos known without a configuration file. -/
def defaultVideos : Catalog :=
  Catalog.ofList
    [("auburn", hourRange 7 18), ("hampton", hourRange 1 12), ("shibuya", hourRange 1 12)]

/-- The configuration used when there is no file. -/
def default (environment : Environment) : Config where
  dataRoot := environment.dataRoot
  nativeRate := 30
  analysisRate := 8
  videos := defaultVideos

/-- Read a 32-bit number. -/
def word? (value : Json) : Option UInt32 :=
  (value.count? UInt32.size).map UInt32.ofNat

/-- Read the execution section; a missing switch is off. -/
def execution? (value : Json) : Option Execution := do
  match ← value.fields? ["parallel_chunks", "parallel_splits"] with
  | [chunks, splits] =>
    some ⟨← Json.defaulting? false Json.flag? chunks, ← Json.defaulting? false Json.flag? splits⟩
  | _ => none

/-- Read the logging section. -/
def logging? (value : Json) : Option Logging := do
  match ← value.fields? ["level", "json"] with
  | [level, json] => some ⟨← Json.required? Json.text? level, ← Json.required? Json.flag? json⟩
  | _ => none

/-- Read the catalog of videos. -/
def videos? (value : Json) : Option Catalog := do
  let members ← value.members?
  let videos ← members.mapM fun (name, hours) => (hours.list? word?).map fun hours => (name, hours)
  some (Catalog.ofList videos)

/-- Read a configuration. -/
def ofJson? (value : Json) : Option Config := do
  match ← value.fields?
    ["data_root", "native_fps", "analysis_fps", "videos", "execution", "logging"] with
  | [root, native, analysis, videos, execution, logging] =>
    some
      { dataRoot := ← Json.required? Json.text? root
        nativeRate := ← Json.required? word? native
        analysisRate := ← Json.required? word? analysis
        videos := ← Json.required? videos? videos
        execution := ← Json.defaulting? {} execution? execution
        logging := ← Json.defaulting? {} logging? logging }
  | _ => none

/-- The members of the execution section. -/
def executionMembers (execution : Execution) : List (String × Json) :=
  [("parallel_chunks", .bool execution.parallelChunks),
    ("parallel_splits", .bool execution.parallelSplits)]

/-- The members of the logging section. -/
def loggingMembers (logging : Logging) : List (String × Json) :=
  [("level", Json.ofText logging.level), ("json", .bool logging.json)]

/-- Write the recorded hours of a video as JSON. -/
def hoursJson (hours : List UInt32) : Json :=
  .array (hours.map fun hour => Json.ofCount hour.toNat)

/-- Write the catalog of videos as JSON. -/
def videosJson (videos : Catalog) : Json :=
  Json.ofMembers (videos.entries.map fun entry => (entry.1, hoursJson entry.2))

/-- The members of a configuration. -/
def members (config : Config) : List (String × Json) :=
  [("data_root", Json.ofText config.dataRoot),
    ("native_fps", Json.ofCount config.nativeRate.toNat),
    ("analysis_fps", Json.ofCount config.analysisRate.toNat),
    ("videos", videosJson config.videos),
    ("execution", Json.ofMembers (executionMembers config.execution)),
    ("logging", Json.ofMembers (loggingMembers config.logging))]

/-- Write a configuration as JSON. -/
def toJson (config : Config) : Json :=
  Json.ofMembers config.members

/-- The text of a configuration file. -/
def text (config : Config) : String :=
  config.toJson.render .indented

/-- Read the configuration file at a path. -/
def loadFrom (store : Store) (path : String) : Outcome Config := do
  let content ← (store.readText path).mapError (FileFault.toError path)
  match (Json.parse? content).bind ofJson? with
  | some config => .ok config
  | none => .error .json

/-- Read the configuration file at the standard place, or take the default configuration. -/
def load (store : Store) (environment : Environment) : Config :=
  let path := environment.configPath
  if store.contains path then
    match loadFrom store path with
    | .ok config => config
    | .error _ => default environment
  else default environment

/-- Write the configuration file at a path, making the directories it needs. -/
def saveTo (config : Config) (store : Store) (path : String) : Outcome Store := do
  let store ← (store.makeDirectory (Path.parent path)).mapError .file
  (store.write path config.text.toUTF8).mapError .file

/-- The recorded hours of a video. -/
def hours (config : Config) (video : String) : Outcome (List UInt32) :=
  match config.videos.hours? video with
  | some hours => .ok hours
  | none => .setting (.unknownVideo video)

/-- The number of sampled frames in all recorded hours of a video.

It is not bounded here. A word of 64 bits holds it for every rate if there are at most 1193046 hours. -/
def analysisFrames (config : Config) (video : String) : Outcome Nat := do
  let hours ← config.hours video
  .ok (hours.length * secondsPerHour * config.analysisRate.toNat)

/-- The sampling from the native rate to the analysis rate. -/
def decimation (config : Config) : Outcome Decimation :=
  Decimation.ofRates config.nativeRate.toNat config.analysisRate.toNat

/-- The directory of stored chunk results. -/
def resultsDirectory (config : Config) : String :=
  Path.join config.dataRoot "query_results"

/-- The directory of persistence distributions. -/
def persistenceDirectory (config : Config) : String :=
  Path.join config.dataRoot "persistence_distributions"

/-- The directory of unmasked detections. -/
def featuresDirectory (config : Config) : String :=
  Path.join config.dataRoot "features"

/-- The directory of masked detections. -/
def maskedFeaturesDirectory (config : Config) : String :=
  Path.join config.dataRoot "masked_features"

end Config

end PrivateFootage
