import PrivateFootage.Command.Options
import PrivateFootage.Detection.Filter
import PrivateFootage.Double
import PrivateFootage.Noise.Laplace
import PrivateFootage.Track.Basic

/-!
# Commands and their arguments

There are four commands: to run a query, to calibrate noise, to describe the sampling of frames, and
to show or write the configuration. The path of the configuration file and the switch for verbose
logging may stand before the command or after it; after it they count more.
-/

namespace PrivateFootage.Command

/-- The arguments that shape windows and their privacy. -/
structure WindowArguments where
  framesPerChunk : Nat := 8
  chunksPerWindow : Nat := 1800
  function : String := "sum"
  epsilon : Float := 1
  lower : List Float := []
  upper : List Float := []
  segments : Nat := 1
  frameUnits : Bool := false

/-- The aggregators that can be chosen by name. -/
inductive AggregatorChoice where
  | zero
  | count
  | upward
deriving DecidableEq, Repr

/-- The arguments of a query. -/
structure RunArguments where
  video : String
  source : String := "just-hybrid"
  aggregator : AggregatorChoice := .count
  window : WindowArguments := {}
  filter : Filter Float := .standard
  tracker : TrackerSettings Float := .standard
  minDistance : Float := 10
  splits : Option Nat := none
  combination : String := "sum"
  smartAdjust : Bool := false
  boundsAfterSplit : Bool := false
  persistence : Option Float := none
  releaseSeed : Option UInt64 := none
  json : Bool := false

/-- The arguments of a calibration. -/
structure NoiseArguments where
  window : WindowArguments := {}
  persistence : Float
  truth : Option Float := none
  monteCarlo : Noise.MonteCarlo := {}

/-- A command with its arguments. -/
inductive Task where
  | run (arguments : RunArguments)
  | noise (arguments : NoiseArguments)
  | frames (native analysis head : Nat)
  | config (write : Bool)

/-- A task and the configuration file to use. -/
structure Invocation where
  configPath : Option String
  task : Task

/-- What a command line asks for. -/
inductive Request where
  | invocation (invocation : Invocation)
  | help
  | version
  | fault

namespace Given

/-- Read an option's value as a number. -/
def number? (given : Given) (name : String) : Option Float :=
  match (given.value? name).map fun text => Written.read text.toList with
  | some (.ok written) => some (Double.ofWritten written)
  | _ => none

/-- Read an option's values as numbers. -/
def numbers (given : Given) (name : String) : List Float :=
  (given.values name).filterMap fun text =>
    match Written.read text.toList with
    | .ok written => some (Double.ofWritten written)
    | .error _ => none

/-- Read an option's value as a natural number of at most 64 bits. -/
def count? (given : Given) (name : String) : Option Nat :=
  (given.value? name).bind (readCount? UInt64.size true)

end Given

/-- An option with a value. -/
def valueRule (name : String) (form : ValueForm) : OptionRule := ⟨name, .single form, none⟩

/-- An option without a value. -/
def flagRule (name : String) : OptionRule := ⟨name, .flag, none⟩

/-- The form of a 64-bit number. -/
def longCount : ValueForm := .count UInt64.size false

/-- The form of a 32-bit number. -/
def wordCount : ValueForm := .count UInt32.size true

/-- The options that may stand before and after the command. -/
def sharedRules : List OptionRule :=
  [⟨"verbose", .flag, some 'v'⟩, valueRule "config" .path, ⟨"help", .help, some 'h'⟩]

/-- The options before the command. -/
def leadingRules : List OptionRule :=
  sharedRules ++ [⟨"version", .version, some 'V'⟩]

/-- The options that shape windows. -/
def windowRules : List OptionRule :=
  [valueRule "frames-per-chunk" longCount, valueRule "chunks-per-window" longCount,
    valueRule "window-fn" .text, valueRule "epsilon" .number, ⟨"lower", .list .number, none⟩,
    ⟨"upper", .list .number, none⟩, valueRule "k-segments" wordCount, flagRule "frame-units"]

/-- The options of the tracker and its filter. -/
def trackerRules : List OptionRule :=
  [valueRule "confidence" .number, valueRule "nms-max-overlap" .number,
    valueRule "max-cosine-distance" .number, valueRule "max-iou-distance" .number,
    valueRule "max-age" wordCount, valueRule "n-init" wordCount, valueRule "min-dist" .number]

/-- The options of a query. -/
def runRules : List OptionRule :=
  [valueRule "video" .text, valueRule "source" .text,
    valueRule "aggregator" (.choice ["null", "count", "upward"])] ++
  windowRules ++ trackerRules ++
  [valueRule "splits" longCount, valueRule "split-combine" .text, flagRule "smart-adjust",
    flagRule "bounds-after-split", valueRule "persistence" .number,
    valueRule "release-seed" longCount, flagRule "json"]

/-- The options of a calibration. -/
def noiseRules : List OptionRule :=
  windowRules ++
  [valueRule "persistence" .number, valueRule "truth" .number, valueRule "iterations" longCount,
    valueRule "samples" longCount, valueRule "seed" longCount]

/-- The options of the description of sampling. -/
def framesRules : List OptionRule :=
  [valueRule "fps" wordCount, valueRule "analysis-fps" wordCount, valueRule "head" longCount]

/-- The options of the configuration command. -/
def configRules : List OptionRule := [flagRule "write"]

/-- The window arguments given. -/
def WindowArguments.ofGiven (given : Given) : WindowArguments where
  framesPerChunk := (given.count? "frames-per-chunk").getD 8
  chunksPerWindow := (given.count? "chunks-per-window").getD 1800
  function := (given.value? "window-fn").getD "sum"
  epsilon := (given.number? "epsilon").getD 1
  lower := given.numbers "lower"
  upper := given.numbers "upper"
  segments := (given.count? "k-segments").getD 1
  frameUnits := given.has "frame-units"

/-- The aggregator of a name. -/
def AggregatorChoice.ofName : String → AggregatorChoice
  | "null" => .zero
  | "upward" => .upward
  | _ => .count

/-- The filter given. -/
def filterOfGiven (given : Given) : Filter Float where
  confidenceThreshold :=
    (given.number? "confidence").getD Filter.standard.confidenceThreshold
  maxOverlap := (given.number? "nms-max-overlap").getD Filter.standard.maxOverlap

/-- The tracker settings given. -/
def trackerOfGiven (given : Given) : TrackerSettings Float :=
  let standard := TrackerSettings.standard
  { maxFeatureDistance := (given.number? "max-cosine-distance").getD standard.maxFeatureDistance
    maxBoxDistance := (given.number? "max-iou-distance").getD standard.maxBoxDistance
    maxAge := (given.count? "max-age").getD standard.maxAge
    hitsToConfirm := (given.count? "n-init").getD standard.hitsToConfirm }

/-- The arguments of a query, which needs a video. -/
def RunArguments.ofGiven? (given : Given) : Option RunArguments := do
  let video ← given.value? "video"
  some
    { video
      source := (given.value? "source").getD "just-hybrid"
      aggregator := AggregatorChoice.ofName ((given.value? "aggregator").getD "count")
      window := .ofGiven given
      filter := filterOfGiven given
      tracker := trackerOfGiven given
      minDistance := (given.number? "min-dist").getD 10
      splits := given.count? "splits"
      combination := (given.value? "split-combine").getD "sum"
      smartAdjust := given.has "smart-adjust"
      boundsAfterSplit := given.has "bounds-after-split"
      persistence := given.number? "persistence"
      releaseSeed := (given.count? "release-seed").map UInt64.ofNat
      json := given.has "json" }

/-- The arguments of a calibration, which needs a persistence. -/
def NoiseArguments.ofGiven? (given : Given) : Option NoiseArguments := do
  let persistence ← given.number? "persistence"
  some
    { window := .ofGiven given
      persistence
      truth := given.number? "truth"
      monteCarlo :=
        { iterations := (given.count? "iterations").getD 100
          samplesPerIteration := (given.count? "samples").getD 1
          seed := UInt64.ofNat ((given.count? "seed").getD 2) } }

/-- A command: its name, its options and how a task comes of them. -/
structure CommandRule where
  name : String
  rules : List OptionRule
  task? : Given → Option Task

/-- The commands there are. -/
def commands : List CommandRule :=
  [⟨"run", runRules, fun given => (RunArguments.ofGiven? given).map .run⟩,
    ⟨"noise", noiseRules, fun given => (NoiseArguments.ofGiven? given).map .noise⟩,
    ⟨"frames", framesRules, fun given =>
      some (.frames ((given.count? "fps").getD 30) ((given.count? "analysis-fps").getD 8)
        ((given.count? "head").getD 16))⟩,
    ⟨"config", configRules, fun given => some (.config (given.has "write"))⟩]

/-- The command of a name. -/
def command? (name : String) : Option CommandRule :=
  commands.find? fun command => command.name = name

/-- Whether the words after `help` name what there is help for. -/
def isHelpTopic : List String → Bool
  | [] => true
  | [name] => name = "help" || (command? name).isSome
  | _ => false

/-- Read a command line. -/
def Request.ofWords (words : List String) : Request :=
  match readOptions leadingRules [] words with
  | .help => .help
  | .version => .version
  | .fault | .finished _ => .fault
  | .word leading name rest =>
    match command? name with
    | none => if name = "help" && isHelpTopic rest then .help else .fault
    | some command =>
      match readOptions (command.rules ++ sharedRules) [] rest with
      | .help => .help
      | .finished given =>
        match command.task? given with
        | none => .fault
        | some task =>
          .invocation
            { configPath := (given.value? "config").orElse fun _ => leading.value? "config"
              task }
      | .version | .fault | .word _ _ _ => .fault

end PrivateFootage.Command
