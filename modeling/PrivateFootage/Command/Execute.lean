import PrivateFootage.Command.Frames
import PrivateFootage.Command.Report

/-!
# Carrying out a command line

A command line is carried out on a store and leaves a store, an exit code, what was printed and, if
it failed, the message of the failure. A command line that cannot be read changes nothing.
-/

namespace PrivateFootage.Command

/-- What carrying out a command line leaves. -/
structure Result where
  code : Nat
  output : String := ""
  message : Option String := none
  store : Store

/-- The name and version of the program. -/
def versionText : String := "privid 0.1.0"

/-- How the program is called. -/
def usageText : String :=
  "Usage: privid [OPTIONS] <run|noise|frames|config>"

/-- Lines as one text. -/
def joinLines (lines : List String) : String :=
  String.join (lines.map (· ++ "\n"))

/-- The result of a computation that prints lines. -/
def Result.ofConsole (console : Console Unit) (store : Store) : Result :=
  match console.transcript with
  | (lines, none) => { code := 0, output := joinLines lines, store }
  | (lines, some failure) =>
    { code := failure.code, output := joinLines lines, message := some failure.message, store }

/-- Whether a task writes the configuration file. -/
def Task.writesConfig : Task → Bool
  | .config write => write
  | _ => false

/-- The configuration of an invocation. A file named has to be readable, unless it is missing and
about to be written. -/
def Invocation.config (invocation : Invocation) (environment : Environment) (store : Store) :
    Except Failure Config :=
  match invocation.configPath with
  | some path =>
    if invocation.task.writesConfig && !store.contains path then .ok (Config.load store environment)
    else (Config.loadFrom store path).mapError fun _ => .configFile path
  | none => .ok (Config.load store environment)

/-- Write the configuration file of an invocation. -/
def Invocation.writeConfig (invocation : Invocation) (environment : Environment) (config : Config)
    (store : Store) : Result :=
  match config.saveTo store (invocation.configPath.getD environment.configPath) with
  | .ok stored => { code := 0, store := stored }
  | .error error => { code := 1, message := some error.message, store }

/-- Carry out an invocation. -/
def Invocation.execute (invocation : Invocation) (environment : Environment) (now : Instant)
    (store : Store) : Result :=
  match invocation.config environment store with
  | .error failure => { code := 1, message := some failure.message, store }
  | .ok config =>
    match invocation.task with
    | .run arguments =>
      let (console, stored) := runQuery arguments config now store
      .ofConsole console stored
    | .noise arguments => .ofConsole (calibrate arguments) store
    | .frames native analysis head => .ofConsole (describeFrames native analysis head) store
    | .config true => invocation.writeConfig environment config store
    | .config false => .ofConsole (Console.print config.text) store

/-- Carry out a command line. -/
def execute (environment : Environment) (now : Instant) (store : Store) (words : List String) :
    Result :=
  match Request.ofWords words with
  | .invocation invocation => invocation.execute environment now store
  | .help => { code := 0, output := joinLines [usageText], store }
  | .version => { code := 0, output := joinLines [versionText], store }
  | .fault => { code := 2, store }

end PrivateFootage.Command
