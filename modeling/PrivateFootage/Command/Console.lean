import PrivateFootage.Error

/-!
# Lines on the console

A task prints lines and may fail on the way; the lines printed before stay.
-/

namespace PrivateFootage.Command

/-- Why a task failed. -/
inductive Failure where
  | error (cause : Error)
  | missingBound (side : Side)
  | configFile (path : String)
  | drift (frames : Int)
deriving DecidableEq, Repr

/-- The wording of a failure. -/
def Failure.message : Failure → String
  | .error cause => cause.message
  | .missingBound side => s!"--{side.word} is required"
  | .configFile path => s!"Failed to load config {path}"
  | .drift frames => s!"Decimation drifted by {frames} frames"

/-- The exit code of a failure. A program that cannot reserve room does not end in good order. -/
def Failure.code : Failure → Nat
  | .error .capacity => 101
  | _ => 1

/-- A computation that prints lines, held in reverse order. -/
abbrev Console (β : Type) := ExceptT Failure (StateM (List String)) β

namespace Console

/-- Print a line. -/
def print (line : String) : Console Unit :=
  modify (line :: ·)

/-- Give the value of an outcome, or fail with its error. -/
def check {β : Type} (outcome : Outcome β) : Console β :=
  match outcome with
  | .ok value => pure value
  | .error error => throw (.error error)

/-- Give the value of a computation that prints nothing, or fail as it does. -/
def lift {β : Type} (result : Except Failure β) : Console β :=
  match result with
  | .ok value => pure value
  | .error failure => throw failure

/-- The lines of a computation and its failure, if it failed. -/
def transcript (console : Console Unit) : List String × Option Failure :=
  match console.run [] with
  | (.ok (), lines) => (lines.reverse, none)
  | (.error failure, lines) => (lines.reverse, some failure)

end Console

end PrivateFootage.Command
