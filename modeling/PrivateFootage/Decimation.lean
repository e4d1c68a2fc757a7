import PrivateFootage.Error

/-!
# Sampling frames at a lower rate

A recording has frames at its native rate and is analysed at a lower one. The strides between
sampled frames carry their rounding error along, as a whole number of `1 / analysis` frames, so that
an exact tie is seen as one and goes to the even stride, and an hour of strides covers exactly an
hour of frames.
-/

namespace PrivateFootage

/-- The number of seconds in the hour that one file covers. -/
def secondsPerHour : Nat := 3600

/-- A native frame rate and a positive analysis rate that does not exceed it. -/
structure Decimation where
  native : Nat
  analysis : Nat
  analysis_pos : 0 < analysis
  analysis_le_native : analysis ≤ native

namespace Decimation

/-- Sample at one rate out of another, if the rates allow it. -/
def ofRates (native analysis : Nat) : Outcome Decimation :=
  if native = 0 ∨ analysis = 0 then .setting (.zeroRate native analysis)
  else if hAbove : native < analysis then .setting (.analysisRateAboveNative native analysis)
  else if hZero : analysis = 0 then .setting (.zeroRate native analysis)
  else .ok ⟨native, analysis, Nat.pos_of_ne_zero hZero, Nat.le_of_not_lt hAbove⟩

/-- Native frames in an hour. -/
def nativePerHour (decimation : Decimation) : Nat :=
  decimation.native * secondsPerHour

/-- Sampled frames in an hour. -/
def analysisPerHour (decimation : Decimation) : Nat :=
  decimation.analysis * secondsPerHour

/-- A quotient rounded to the nearest integer, with ties to even. -/
def roundDiv (numerator : Int) (denominator : Nat) : Int :=
  let quotient := numerator / denominator
  let rest := 2 * (numerator % denominator)
  if rest < denominator ∨ (rest = denominator ∧ quotient % 2 = 0) then quotient else quotient + 1

/-- The frame to sample next and the rounding error carried so far. -/
structure Cursor where
  frame : Nat
  residual : Int
deriving DecidableEq, Repr

/-- The stride from a cursor to the next. -/
def stride (decimation : Decimation) (cursor : Cursor) : Int :=
  roundDiv (decimation.native + cursor.residual) decimation.analysis

/-- The cursor after a stride. -/
def advance (decimation : Decimation) (cursor : Cursor) : Cursor :=
  let step := decimation.stride cursor
  { frame := cursor.frame + step.toNat
    residual := decimation.native + cursor.residual - step * decimation.analysis }

/-- Sample at most `limit` frames from a cursor to the end of the hour, each with the stride that
follows it. Earlier samples are held in reverse order. -/
def sampleFrom (decimation : Decimation) (sampled : List (Nat × Nat)) :
    (limit : Nat) → Cursor → List (Nat × Nat)
  | 0, _ => sampled.reverse
  | limit + 1, cursor =>
    if cursor.frame < decimation.nativePerHour then
      decimation.sampleFrom ((cursor.frame, (decimation.stride cursor).toNat) :: sampled) limit
        (decimation.advance cursor)
    else sampled.reverse

/-- The first samples of an hour, at most `limit` of them, each with the stride that follows it. -/
def samples (decimation : Decimation) (limit : Nat) : List (Nat × Nat) :=
  decimation.sampleFrom [] limit ⟨0, 0⟩

/-- Every sample of an hour. There are at most as many as native frames. -/
def hourSamples (decimation : Decimation) : List (Nat × Nat) :=
  decimation.samples decimation.nativePerHour

/-- The indices of the frames sampled in an hour. -/
def frames (decimation : Decimation) : List Nat :=
  decimation.hourSamples.map Prod.fst

/-- The strides after the frames sampled in an hour. -/
def strides (decimation : Decimation) : List Nat :=
  decimation.hourSamples.map Prod.snd

/-- The native frames that the strides of an hour go over. -/
def covered (decimation : Decimation) : Nat :=
  decimation.strides.foldl Nat.add 0

/-- The smallest and the largest stride of an hour. -/
def strideRange (decimation : Decimation) : Nat × Nat :=
  match decimation.strides with
  | [] => (0, 0)
  | first :: rest => (rest.foldl Nat.min first, rest.foldl Nat.max first)

end Decimation

end PrivateFootage
