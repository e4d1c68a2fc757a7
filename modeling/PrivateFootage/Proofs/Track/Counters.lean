import Mathlib
import PrivateFootage.Proofs.Track.Lifecycle

/-!
# Counters of 32 bits

The hits and the age of a track are counted without a limit. A counter of 32 bits that is full starts again
from zero when it is raised, or it stops the run, whichever is arranged. A call raises a counter by one at
most. So a run of fewer than `2 ^ 32` calls fills none, and its tracker is the one with counters that have no
limit. Where a full counter stops the run, this holds of every run that is not stopped. Where it starts again
from zero, `2 ^ 32` frames that pass leave no trace.

The numbers of tracks are not part of this: they are given out from a counter without a limit.
-/

namespace PrivateFootage

/-- One more, in a word of 32 bits. -/
def wordSucc (count : ℕ) : ℕ := (UInt32.ofNat count + 1).toNat

/-- A counter of 32 bits that cannot be raised. -/
def IsFull (count : ℕ) : Prop := 2 ^ 32 ≤ count + 1

instance decidableIsFull (count : ℕ) : Decidable (IsFull count) :=
  inferInstanceAs (Decidable (2 ^ 32 ≤ count + 1))

/-- One more, up to whole words. -/
theorem wordSucc_eq_mod (count : ℕ) : wordSucc count = (count + 1) % 2 ^ 32 := by
  rw [wordSucc, UInt32.toNat_add, UInt32.toNat_ofNat', UInt32.toNat_one, Nat.mod_add_mod]

/-- A counter that is raised again and again goes round. -/
theorem wordSucc_iterate {count : ℕ} (hcount : count < 2 ^ 32) (times : ℕ) :
    wordSucc^[times] count = (count + times) % 2 ^ 32 := by
  induction times with
  | zero => exact (Nat.mod_eq_of_lt hcount).symm
  | succ times ih => rw [Function.iterate_succ_apply', ih, wordSucc_eq_mod, Nat.mod_add_mod, Nat.add_assoc]

namespace Tracker

variable {α : Type} [Analytic α] {tracker : Tracker α} {overflow : Overflow} {settings : TrackerSettings α}

/-- A call raises a counter that is full: the age of a track, or the hits of one that a detection is matched
to. -/
def Overflows (tracker : Tracker α) : Call α → Prop
  | .predict => ∃ track ∈ tracker.tracks, IsFull track.age
  | .update detections => ∃ placed ∈ tracker.tracks.zipIdx,
      (∃ pair ∈ Candidate.matched tracker detections, pair.track = placed.2) ∧ IsFull placed.1.hits

instance decidableOverflows (tracker : Tracker α) : (call : Call α) → Decidable (tracker.Overflows call)
  | .predict => inferInstanceAs (Decidable (∃ track ∈ tracker.tracks, IsFull track.age))
  | .update detections => inferInstanceAs (Decidable (∃ placed ∈ tracker.tracks.zipIdx,
      (∃ pair ∈ Candidate.matched tracker detections, pair.track = placed.2) ∧ IsFull placed.1.hits))

omit [Analytic α] in
/-- Frames that pass one after another raise each age as often. -/
theorem iterate_predictWith (raise : ℕ → ℕ) (tracker : Tracker α) (count : ℕ) :
    (predictWith raise)^[count] tracker = tracker.predictWith raise^[count] := by
  induction count with
  | zero =>
    change tracker = { tracker with tracks := tracker.tracks.map id }
    rw [List.map_id]
  | succ count ih =>
    rw [Function.iterate_succ_apply', ih]
    simp only [predictWith, List.map_map, Function.comp_def, Function.iterate_succ_apply']

omit [Analytic α] in
/-- When `2 ^ 32` frames pass, counters that start again from zero come back to what they were. -/
theorem iterate_predictWith_wordSucc (hages : ∀ track ∈ tracker.tracks, track.age < 2 ^ 32) :
    (predictWith wordSucc)^[2 ^ 32] tracker = tracker := by
  have htracks : (tracker.tracks.map fun track => { track with age := wordSucc^[2 ^ 32] track.age }) =
      tracker.tracks.map id :=
    List.map_congr_left fun track htrack => by
      rw [wordSucc_iterate (hages track htrack), Nat.add_mod_right, Nat.mod_eq_of_lt (hages track htrack)]
      rfl
  rw [iterate_predictWith, predictWith, htracks, List.map_id]

end Tracker

end PrivateFootage
