import Mathlib
import PrivateFootage.Noise.Accuracy
import PrivateFootage.Proofs.Outcome

/-!
# One seed is one stream of noise

Every draw takes the stream as the one before has left it, so a draw is told by its position alone:
it does not matter how many draws are asked for, nor how they are laid out in rows. A draw at scale
zero leaves the stream where it is, which is no exception.

Nothing here depends on which words the stream gives, nor on how doubles round.
-/

namespace PrivateFootage.Noise

variable (scale : Float) (stream : Keystream)

/-- The stream after a number of draws. -/
def streamAfter (scale : Float) (stream : Keystream) (count : ℕ) : Keystream :=
  (fun stream => (draw scale stream).2)^[count] stream

/-- The draw at a position of a stream. -/
def drawAt (scale : Float) (stream : Keystream) (position : ℕ) : Float :=
  (draw scale (streamAfter scale stream position)).1

/-- The draws at the first positions of a stream. -/
def firstDraws (scale : Float) (stream : Keystream) (count : ℕ) : List Float :=
  (List.range count).map (drawAt scale stream)

/-- No draws leave the stream as it is. -/
@[simp] theorem streamAfter_zero : streamAfter scale stream 0 = stream := rfl

/-- Draws after some others are further along the same stream. -/
theorem streamAfter_add (first second : ℕ) :
    streamAfter scale (streamAfter scale stream first) second =
      streamAfter scale stream (first + second) := by
  rw [streamAfter, streamAfter, streamAfter, ← Function.iterate_add_apply, Nat.add_comm]

/-- A position after some draws is a position further on. -/
theorem drawAt_streamAfter (first position : ℕ) :
    drawAt scale (streamAfter scale stream first) position = drawAt scale stream (first + position) := by
  rw [drawAt, streamAfter_add, drawAt]

/-- Some draws and then more are the draws at the first positions of the stream. -/
theorem firstDraws_add (first second : ℕ) :
    firstDraws scale stream (first + second) =
      firstDraws scale stream first ++ firstDraws scale (streamAfter scale stream first) second := by
  simp [firstDraws, List.range_add, drawAt_streamAfter]

/-- Drawing step by step gives the draws at the first positions and leaves the stream after them. -/
theorem drawsFrom_eq (drawn : List Float) (count : ℕ) :
    drawsFrom scale drawn count stream =
      (drawn.reverse ++ firstDraws scale stream count, streamAfter scale stream count) := by
  induction count generalizing drawn stream with
  | zero => simp [drawsFrom, firstDraws]
  | succ count ih =>
    have hfirst : firstDraws scale stream (count + 1) =
        (draw scale stream).1 :: firstDraws scale (draw scale stream).2 count := by
      rw [Nat.add_comm, firstDraws_add]
      rfl
    change drawsFrom scale ((draw scale stream).1 :: drawn) count (draw scale stream).2 = _
    rw [ih, hfirst, List.reverse_cons, List.append_assoc]
    rfl

/-- Drawing a number of times. -/
theorem draws_eq (count : ℕ) :
    draws scale count stream = (firstDraws scale stream count, streamAfter scale stream count) := by
  rw [draws, drawsFrom_eq]
  rfl

variable {scale}

/-- At an accepted scale, noise is the first draws of the stream of the seed. -/
theorem sample_eq_ok (hscale : checkScale scale = .ok ()) (count : ℕ) (seed : UInt64) :
    sample count seed scale = .ok (firstDraws scale (Keystream.ofSeed seed) count) := by
  rw [sample, hscale, draws_eq]
  rfl

end PrivateFootage.Noise
