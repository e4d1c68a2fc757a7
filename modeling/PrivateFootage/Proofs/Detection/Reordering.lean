import Mathlib
import PrivateFootage.Aggregator
import PrivateFootage.Double
import PrivateFootage.Proofs.Detection.Suppression

/-!
# The order of the rows in a frame

Positions break ties in the ranking, and do nothing else. If no two rows of a frame that are confident enough
have the same confidence, there are no ties: however the rows are ordered, the same detections remain in the
same order. Trackers start from nothing in every chunk, so the same tracks follow, under the same numbers, and
the same values.
-/

namespace PrivateFootage

section Ranking

variable {α : Type} [Scalar α] {detections detections' : List (Detection α)} {filter : Filter α}
  {rows rows' : Frame α}

/-- Two numbers have one place in the total order. -/
def PlacedAlike (x y : α) : Prop := Scalar.precedes x y = true ∧ Scalar.precedes y x = true

/-- Numbers that are told apart are so in either order. -/
theorem not_placedAlike_symm {x y : α} (hxy : ¬PlacedAlike x y) : ¬PlacedAlike y x :=
  fun hyx => hxy hyx.symm

/-- The ranking leaves nothing out and adds nothing. -/
theorem map_fst_ranked_perm (detections : List (Detection α)) :
    ((ranked detections).map Prod.fst).Perm detections := by
  have hperm : ((ranked detections).map Prod.fst).Perm (detections.zipIdx.map Prod.fst) :=
    (List.mergeSort_perm _ _).map _
  rwa [List.zipIdx_map_fst] at hperm

/-- Without ties, the ranking goes strictly down in confidence. -/
theorem pairwise_confidence_ranked
    (hapart : detections.Pairwise fun a b => ¬PlacedAlike a.confidence b.confidence) :
    ((ranked detections).map Prod.fst).Pairwise
      fun a b => Scalar.precedes a.confidence b.confidence = false := by
  have hranked := ((map_fst_ranked_perm detections).pairwise_iff not_placedAlike_symm).mpr hapart
  rw [List.pairwise_map] at hranked ⊢
  refine (pairwise_ranked detections).imp₂ (fun a b hrank hab => ?_) hranked
  cases hrank with
  | inl hless => exact hless
  | inr htied => exact Bool.eq_false_iff.mpr fun h => hab ⟨h, htied.1⟩

/-- Without ties, the ranking does not depend on the order of the detections. -/
theorem map_fst_ranked_eq_of_perm (hperm : detections.Perm detections')
    (hapart : detections.Pairwise fun a b => ¬PlacedAlike a.confidence b.confidence) :
    (ranked detections).map Prod.fst = (ranked detections').map Prod.fst := by
  have hapart' := (hperm.pairwise_iff not_placedAlike_symm).mp hapart
  have hsame : ((ranked detections).map Prod.fst).Perm ((ranked detections').map Prod.fst) :=
    (map_fst_ranked_perm detections).trans (hperm.trans (map_fst_ranked_perm detections').symm)
  refine hsame.eq_of_pairwise (fun a b _ _ hab hba => ?_) (pairwise_confidence_ranked hapart)
    (pairwise_confidence_ranked hapart')
  rw [Scalar.precedes_of_not_precedes hab] at hba
  cases hba

/-- Without ties among the rows that pass, a filter does not depend on the order of the rows. -/
theorem Filter.apply_eq_of_perm (hperm : rows.Perm rows')
    (hapart : (rows.filter filter.passes).Pairwise fun a b => ¬PlacedAlike a.confidence b.confidence) :
    filter.apply rows = filter.apply rows' := by
  have hpassing : ((rows.filter filter.passes).map Row.detection).Perm
      ((rows'.filter filter.passes).map Row.detection) := (hperm.filter _).map _
  have hcandidates : filter.candidates rows = filter.candidates rows' :=
    map_fst_ranked_eq_of_perm hpassing (List.pairwise_map.mpr hapart)
  rw [apply_eq_dropBlocked, apply_eq_dropBlocked, hcandidates]

end Ranking

/-! ### Doubles -/

/-- The total order has a place of its own for every double. -/
theorem Double.rank_injective : Function.Injective Double.rank := by
  intro x y hrank
  unfold Double.rank at hrank
  apply Float.toBits_inj.mp
  apply UInt64.toNat_inj.mp
  dsimp only at hrank
  split_ifs at hrank <;> omega

/-- Doubles that have one place in the total order are the same. -/
theorem Double.eq_of_placedAlike {x y : Float} (hplaced : PlacedAlike x y) : x = y :=
  Double.rank_injective (le_antisymm (of_decide_eq_true hplaced.1) (of_decide_eq_true hplaced.2))

/-! ### The whole of it -/

namespace Aggregator

/-- Whatever the filter, the settings of the tracker and the distance: if the frames of two chunks have the same
rows, in any order, and no two rows of a frame that are confident enough have the same confidence, then the
filter leaves the same detections of each frame in the same order, and both aggregators give the same values on
the two chunks. -/
theorem invoke_eq_of_reordered (filter : Filter Float) (settings : TrackerSettings Float) (minDistance : Float)
    (chunk chunk' : Chunk Float) (hframes : List.Forall₂ List.Perm chunk chunk')
    (hdistinct : ∀ frame ∈ chunk,
      (frame.filter fun row => decide (filter.confidenceThreshold ≤ row.confidence)).Pairwise
        fun a b => a.confidence ≠ b.confidence) :
    List.Forall₂ (fun frame frame' => filter.apply frame = filter.apply frame') chunk chunk' ∧
    (count filter settings).invoke chunk = (count filter settings).invoke chunk' ∧
    (upward filter settings minDistance).invoke chunk = (upward filter settings minDistance).invoke chunk' := by
  have happly : List.Forall₂ (fun frame frame' => filter.apply frame = filter.apply frame') chunk chunk' := by
    induction hframes with
    | nil => exact List.Forall₂.nil
    | cons hperm _ ih =>
      obtain ⟨hfirst, hrest⟩ := List.forall_mem_cons.mp hdistinct
      refine List.Forall₂.cons (Filter.apply_eq_of_perm hperm ?_) (ih hrest)
      exact hfirst.imp fun hne halike => hne (Double.eq_of_placedAlike halike)
  have hdetections : chunk.map filter.apply = chunk'.map filter.apply := by
    rw [← List.forall₂_eq_eq_eq, List.forall₂_map_left_iff, List.forall₂_map_right_iff]
    exact happly
  refine ⟨happly, ?_, ?_⟩
  · change Except.ok (countTracks filter settings chunk) = .ok (countTracks filter settings chunk')
    unfold countTracks
    rw [hdetections]
  · change Except.ok (countRisen filter settings minDistance chunk) =
      .ok (countRisen filter settings minDistance chunk')
    unfold countRisen
    rw [hdetections]

/-- Two frames with two boxes each, and in the second one two rows that are not confident enough. -/
def twoBoxChunk : Chunk Float :=
  [[⟨0, 0, ⟨0, 0, 10, 10⟩, 0.9, []⟩, ⟨0, 0, ⟨40, 0, 10, 10⟩, 0.95, []⟩],
    [⟨1, 1, ⟨1, 0, 10, 10⟩, 0.85, []⟩, ⟨1, 1, ⟨70, 0, 10, 10⟩, 0.5, []⟩, ⟨1, 1, ⟨80, 0, 10, 10⟩, 0.5, []⟩,
      ⟨1, 1, ⟨41, 0, 10, 10⟩, 0.9, []⟩]]

/-- The same chunk, with the rows of each frame in the reverse order. -/
def reversedChunk : Chunk Float := twoBoxChunk.map List.reverse

/-- Rows that do not pass may be as confident as each other. -/
theorem invoke_eq_of_reordered_two_boxes :
    List.Forall₂ List.Perm twoBoxChunk reversedChunk ∧
    (∀ frame ∈ twoBoxChunk,
      (frame.filter fun row => decide (Filter.standard.confidenceThreshold ≤ row.confidence)).Pairwise
        fun a b => a.confidence ≠ b.confidence) ∧
    List.Forall₂ (fun frame frame' => Filter.standard.apply frame = Filter.standard.apply frame') twoBoxChunk
      reversedChunk ∧
    (count Filter.standard .standard).invoke twoBoxChunk = (count Filter.standard .standard).invoke reversedChunk ∧
    (upward Filter.standard .standard 10).invoke twoBoxChunk =
      (upward Filter.standard .standard 10).invoke reversedChunk := by
  have hframes : List.Forall₂ List.Perm twoBoxChunk reversedChunk :=
    List.forall₂_map_right_iff.mpr (List.forall₂_same.mpr fun frame _ => (List.reverse_perm frame).symm)
  have hdistinct : ∀ frame ∈ twoBoxChunk,
      (frame.filter fun row => decide (Filter.standard.confidenceThreshold ≤ row.confidence)).Pairwise
        fun a b => a.confidence ≠ b.confidence := by decide +kernel
  exact ⟨hframes, hdistinct,
    invoke_eq_of_reordered Filter.standard .standard 10 twoBoxChunk reversedChunk hframes hdistinct⟩

end Aggregator

end PrivateFootage
