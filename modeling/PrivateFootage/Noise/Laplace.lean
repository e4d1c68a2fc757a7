import PrivateFootage.Double
import PrivateFootage.Error
import PrivateFootage.Noise.Keystream

/-!
# Laplace noise

Noise is drawn by running uniform numbers strictly between zero and one through the quantile
function of the Laplace distribution. One seed gives one stream of draws. A scale of zero gives
zeros and takes nothing from the stream.
-/

namespace PrivateFootage.Noise

/-- The quantile of the zero-mean Laplace distribution. -/
def laplaceQuantile {α : Type} [Analytic α] (probability scale : α) : α :=
  let centered := probability - Scalar.half
  (-scale) * Scalar.sign centered *
    Analytic.ln (1 - Scalar.two * Scalar.magnitude centered)

/-- Check that a scale is finite and not negative. -/
def checkScale {α : Type} [Scalar α] (scale : α) : Outcome Unit :=
  if !Scalar.isFinite scale || decide (scale < 0) then
    .setting (.noiseScale (Scalar.plainText scale))
  else .ok ()

/-- The radius around zero that holds a share of the noise. -/
def ribbon {α : Type} [Analytic α] (scale confidence : α) : Outcome α := do
  checkScale scale
  if 0 < confidence ∧ confidence < 1 then .ok (laplaceQuantile confidence scale)
  else .setting (.ribbonConfidence (Scalar.plainText confidence))

/-- The share of the noise that reported ribbons hold. -/
def ribbonConfidence : Float := 0.99

/-- The uniform number of a random word: an odd multiple of `2 ^ -53` below one.

The upper 52 bits become the fraction of a number between one and two. -/
def uniform (word : UInt64) : Float :=
  Float.ofBits ((0x3ff0000000000000 : UInt64) ||| (word >>> 12)) -
    Float.ofBits 0x3fefffffffffffff

/-- Draw one number at a scale, with a way to make a uniform number of a random word. -/
def drawWith {α : Type} [Analytic α] (uniform : UInt64 → α) (scale : α) (stream : Keystream) :
    α × Keystream :=
  if scale == 0 then (0, stream)
  else
    let (word, rest) := stream.next
    (laplaceQuantile (uniform word) scale, rest)

/-- Draw one number at a scale. -/
def draw (scale : Float) (stream : Keystream) : Float × Keystream :=
  drawWith uniform scale stream

/-- Draw a number of times. Earlier draws are held in reverse order. -/
def drawsFrom (scale : Float) (drawn : List Float) : Nat → Keystream → List Float × Keystream
  | 0, stream => (drawn.reverse, stream)
  | count + 1, stream =>
    let (value, rest) := draw scale stream
    drawsFrom scale (value :: drawn) count rest

/-- Draw a number of times, and keep the rest of the stream. -/
def draws (scale : Float) (count : Nat) (stream : Keystream) : List Float × Keystream :=
  drawsFrom scale [] count stream

/-- A number of draws from the stream of a seed. -/
def sample (count : Nat) (seed : UInt64) (scale : Float) : Outcome (List Float) := do
  checkScale scale
  .ok (draws scale count (Keystream.ofSeed seed)).1

/-- How often and from which seed noise is drawn. -/
structure MonteCarlo where
  iterations : Nat := 100
  samplesPerIteration : Nat := 1
  seed : UInt64 := 2
deriving DecidableEq, Repr

/-- Draw rows of numbers. Earlier rows are held in reverse order. -/
def rowsFrom (scale : Float) (perRow : Nat) (drawn : List (List Float)) :
    Nat → Keystream → List (List Float)
  | 0, _ => drawn.reverse
  | count + 1, stream =>
    let (row, rest) := draws scale perRow stream
    rowsFrom scale perRow (row :: drawn) count rest

/-- One row of draws for each iteration, all from one stream. -/
def sampleMatrix (scale : Float) (monteCarlo : MonteCarlo) : Outcome (List (List Float)) := do
  checkScale scale
  .ok (rowsFrom scale monteCarlo.samplesPerIteration [] monteCarlo.iterations
    (Keystream.ofSeed monteCarlo.seed))

end PrivateFootage.Noise
