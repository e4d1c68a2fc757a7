import PrivateFootage.Command.Calibrate
import PrivateFootage.Query

/-!
# Query reports

A report lists the windows of a query. With privacy parameters it also has the scale of the noise
and its ribbon, and with a seed the noisy values. The noise of released values is always drawn at
the scale for chunks; the unit changes only what is reported.
-/

namespace PrivateFootage.Command

/-- What is reported of a query. -/
structure Report where
  video : String
  rendition : Rendition
  key : String
  windows : List Float
  unit : NoiseUnit
  /-- The noise scale and its ribbon. -/
  noise : Option (Float × Float) := none
  released : Option (List Float) := none

namespace Report

/-- Write a report as JSON. -/
def toJson (report : Report) : Json :=
  let optional (value : Option Float) : Json := (value.map Json.ofScalar).getD .null
  let list (values : List Float) : Json := .array (values.map Json.ofScalar)
  Json.ofMembers
    [("video", Json.ofText report.video), ("source", report.rendition.toJson),
      ("cache_key", Json.ofText report.key), ("windows", list report.windows),
      ("noise_scale", optional (report.noise.map Prod.fst)),
      ("noise_unit", report.unit.toJson),
      ("ribbon", optional (report.noise.map Prod.snd)),
      ("released", (report.released.map list).getD .null)]

/-- Pad a text with blanks on the left. -/
def padded (width : Nat) (text : String) : String :=
  String.ofList (List.replicate (width - text.length) ' ') ++ text

/-- A value in a column. -/
def column (value : Float) : String :=
  padded 12 (Scalar.fixedText 3 value)

/-- The row of a window. -/
def row (report : Report) (index : Nat) (value : Float) : String :=
  let first := s!"{padded 6 (toString index)}  {column value}"
  match report.released.bind fun released => released[index]? with
  | some released => s!"{first}  {column released}"
  | none => first

/-- The lines of a report as text. -/
def lines (report : Report) : List String :=
  let heading :=
    [s!"Query: {report.key}", s!"  Video: {report.video} ({report.rendition.tag})",
      s!"  Windows: {report.windows.length}"]
  let noise :=
    match report.noise with
    | some (scale, ribbon) =>
      [s!"  Noise scale: {Scalar.fixedText 4 scale} ({report.unit.name})",
        "  " ++ ribbonText ribbon report.unit]
    | none => ["  No privacy parameters; values are not private"]
  heading ++ noise ++ [""] ++ report.windows.mapIdx fun index value => report.row index value

end Report

namespace RunArguments

/-- The unit that noise is reported in. -/
def unit (arguments : RunArguments) : NoiseUnit :=
  if arguments.window.frameUnits then .frames else .chunks

/-- The privacy parameters of a query, if any bound is given. -/
def privacy (arguments : RunArguments) : Except Failure (Option (PrivacyParams Float)) := do
  let window := arguments.window
  if window.lower.isEmpty && window.upper.isEmpty then .ok none
  else
    let params ← window.privacy
    match arguments.splits with
    | none => .ok (some params)
    | some splits =>
      let combination ← (Combination.lookup arguments.combination).mapError .error
      .ok (some { params with combination, splitCount := some splits })

/-- The query asked for. -/
def spec (arguments : RunArguments) : Except Failure (QuerySpec Float) := do
  let rendition ← (Rendition.lookup arguments.source).mapError .error
  let function ← (WindowFunction.lookup arguments.window.function).mapError .error
  let privacy ← arguments.privacy
  .ok
    { video := arguments.video
      rendition
      framesPerChunk := arguments.window.framesPerChunk
      chunksPerWindow := arguments.window.chunksPerWindow
      function
      privacy
      smartAdjust := arguments.smartAdjust }

/-- The aggregator asked for. -/
def aggregatorOf (arguments : RunArguments) : Aggregator Float :=
  match arguments.aggregator with
  | .zero => Aggregator.zero Float
  | .count => Aggregator.count arguments.filter arguments.tracker
  | .upward => Aggregator.upward arguments.filter arguments.tracker arguments.minDistance

/-- Accept the query asked for, or say why not. -/
def query (arguments : RunArguments) (config : Config) : Except Failure (Query Float) := do
  let spec ← arguments.spec
  (Query.ofSpec config spec arguments.aggregatorOf).mapError .error

/-- The noise scale for chunks: for the longest stay given, or else the one measured. -/
def scale (arguments : RunArguments) (query : Query Float) (store : Store) : Outcome Float :=
  match arguments.persistence with
  | some persistence => query.spec.noiseScale persistence .chunks
  | none => (query.noiseScale store .chunks).1

/-- Windows with noise of a scale, if a seed is given. -/
def release (arguments : RunArguments) (windows : List Float) (scale : Float) :
    Outcome (Option (List Float)) :=
  match arguments.releaseSeed with
  | none => .ok none
  | some seed => do
    let noise ← Noise.sample windows.length seed scale
    .ok (some (List.zipWith (· + ·) windows noise))

/-- Complete a report with the noise of a private query. -/
def addNoise (arguments : RunArguments) (query : Query Float) (store : Store) (report : Report) :
    Outcome Report :=
  if query.spec.privacy.isNone then .ok report
  else do
    let scale ← arguments.scale query store
    let released ← arguments.release report.windows scale
    let reported := match report.unit with
      | .chunks => scale
      | .frames => scale * Scalar.ofNat query.spec.framesPerChunk
    let ribbon ← Noise.ribbon reported Noise.ribbonConfidence
    .ok { report with noise := some (reported, ribbon), released }

/-- Run a query and report it. -/
def report (arguments : RunArguments) (config : Config) (now : Instant) (store : Store) :
    Except Failure Report × Store :=
  match arguments.query config with
  | .error failure => (.error failure, store)
  | .ok query =>
    match query.windows now store arguments.boundsAfterSplit with
    | (.error error, _, stored) => (.error (.error error), stored)
    | (.ok windows, obtained, stored) =>
      let plain : Report :=
        { video := query.spec.video, rendition := query.spec.rendition, key := query.key, windows,
          unit := arguments.unit }
      ((arguments.addNoise obtained stored plain).mapError .error, stored)

end RunArguments

/-- Run a query and print its report. -/
def runQuery (arguments : RunArguments) (config : Config) (now : Instant) (store : Store) :
    Console Unit × Store :=
  let (result, stored) := arguments.report config now store
  let printing := do
    let report ← Console.lift result
    if arguments.json then Console.print (report.toJson.render .indented)
    else report.lines.forM Console.print
  (printing, stored)

end PrivateFootage.Command
