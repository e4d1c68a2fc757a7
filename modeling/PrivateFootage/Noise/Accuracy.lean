import PrivateFootage.Chunk.Value
import PrivateFootage.Noise.Laplace

/-!
# Accuracy of releases

A release scores one less its distance from the truth relative to the truth. The accuracy of a set
of releases is the mean of their scores and the standard deviation of the set.
-/

namespace PrivateFootage.Noise

/-- Mean and standard deviation of scores. -/
structure Accuracy (α : Type) where
  mean : α
  deviation : α
deriving DecidableEq, Repr

/-- The score of one release. -/
def score {α : Type} [Scalar α] (truth release : α) : α :=
  1 - Scalar.magnitude (release - truth) / truth

/-- The accuracy of a set of releases of a truth that is not zero. -/
def accuracy {α : Type} [Analytic α] (truth : α) (releases : List α) : Outcome (Accuracy α) :=
  if truth == 0 then .data .zeroTruth
  else if releases.isEmpty then .data .noReleases
  else
    let scores := releases.map (score truth)
    let mean := Scalar.mean scores
    let squares := scores.map fun value => (value - mean) * (value - mean)
    .ok ⟨mean, Analytic.sqrt (Scalar.mean squares)⟩

/-- The accuracy of releases of a truth with noise at a scale. -/
def monteCarloAccuracy (truth scale : Float) (monteCarlo : MonteCarlo) :
    Outcome (Accuracy Float) := do
  let noise ← sampleMatrix scale monteCarlo
  accuracy truth (noise.flatten.map fun value => truth + value)

/-- Write an accuracy as JSON. -/
def Accuracy.toJson {α : Type} [Scalar α] (accuracy : Accuracy α) : Json :=
  Json.ofMembers
    [("mean", Json.ofScalar accuracy.mean), ("std", Json.ofScalar accuracy.deviation)]

/-- Read an accuracy from JSON. -/
def Accuracy.ofJson? {α : Type} [Scalar α] (value : Json) : Option (Accuracy α) := do
  match ← value.fields? ["mean", "std"] with
  | [mean, deviation] =>
    some ⟨← Json.required? Json.scalar? mean, ← Json.required? Json.scalar? deviation⟩
  | _ => none

/-- Write a noise plan as JSON. -/
def MonteCarlo.toJson (monteCarlo : MonteCarlo) : Json :=
  Json.ofMembers
    [("iterations", Json.ofCount monteCarlo.iterations),
      ("samples_per_iteration", Json.ofCount monteCarlo.samplesPerIteration),
      ("seed", Json.ofCount monteCarlo.seed.toNat)]

/-- Read a noise plan from JSON. -/
def MonteCarlo.ofJson? (value : Json) : Option MonteCarlo := do
  match ← value.fields? ["iterations", "samples_per_iteration", "seed"] with
  | [iterations, samples, seed] =>
    let count := Json.required? (Json.count? UInt64.size)
    some ⟨← count iterations, ← count samples, UInt64.ofNat (← count seed)⟩
  | _ => none

end PrivateFootage.Noise
