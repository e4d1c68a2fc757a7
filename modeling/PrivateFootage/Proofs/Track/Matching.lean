import Mathlib
import PrivateFootage.Double
import PrivateFootage.Proofs.Greedy
import PrivateFootage.Proofs.KeyOrder
import PrivateFootage.Track.Matching

/-!
# The matching of detections to tracks

A pair of a track and a detection comes before another if it costs less, or if it costs no more and its track
or, for one track, its detection has the smaller position. In this order pairs are matched unless a pair that
is matched already has the track or the detection. The matching can be told without the walk: a pair that may
be matched is left out exactly if a matched pair before it shares its track or its detection. That leaves one
matching only.
-/

namespace PrivateFootage

namespace Candidate

variable {α : Type} [Analytic α] {tracker : Tracker α} {detections : List (Detection α)} {a b c pair : Candidate α}

/-! ### The order of pairs -/

/-- A pair comes before another: it costs less, or no more and has the smaller place. -/
def Earlier (a b : Candidate α) : Prop :=
  Scalar.precedes b.cost a.cost = false ∨
    Scalar.precedes a.cost b.cost = true ∧
      (a.track < b.track ∨ a.track = b.track ∧ a.position < b.position)

/-- Pairs come in the order of their costs, and at a tie of their places. -/
theorem earlier_iff_byKey : Earlier a b ↔
    ByKey cost (fun a b => a.track < b.track ∨ a.track = b.track ∧ a.position < b.position) a b := by
  rw [byKey_iff]
  rfl

/-- Pairs are considered in the order of their costs, and at a tie of their places. -/
theorem comesBefore_eq_true_iff : comesBefore a b = true ↔
    ByKey cost (fun a b => a.track < b.track ∨ a.track = b.track ∧ a.position ≤ b.position) a b := by
  unfold comesBefore ByKey
  split_ifs with hab hba
  · simp [hab, hba]
  · simp [hab, hba]
  · simp [hab]

/-- Pairs are considered in a transitive order. -/
theorem comesBefore_trans (a b c : Candidate α) (hab : comesBefore a b = true) (hbc : comesBefore b c = true) :
    comesBefore a c = true := by
  rw [comesBefore_eq_true_iff] at hab hbc ⊢
  exact hab.trans (by omega) hbc

/-- Of two pairs, one is considered before the other. -/
theorem comesBefore_total (a b : Candidate α) : (comesBefore a b || comesBefore b a) = true := by
  rw [Bool.or_eq_true, comesBefore_eq_true_iff, comesBefore_eq_true_iff]
  exact byKey_total (by omega)

/-- A pair that is considered before one at another place comes before it. -/
theorem earlier_of_comesBefore (hab : comesBefore a b = true)
    (hplace : a.track ≠ b.track ∨ a.position ≠ b.position) : Earlier a b :=
  earlier_iff_byKey.mpr ((comesBefore_eq_true_iff.mp hab).imp (by omega))

/-- No pair comes before itself, and the order is transitive. -/
instance isStrictOrder_earlier : IsStrictOrder (Candidate α) Earlier where
  irrefl a := by
    rw [earlier_iff_byKey]
    exact byKey_irrefl (by omega)
  trans a b c hab hbc := by
    rw [earlier_iff_byKey] at hab hbc ⊢
    exact hab.trans (by omega) hbc

/-! ### The pairs that may be matched -/

/-- A track and a detection, each at its position, may be matched at a cost. -/
def Allowed (tracker : Tracker α) (detections : List (Detection α)) (pair : Candidate α) : Prop :=
  detections[pair.position]? = some pair.detection ∧
    ∃ track, tracker.tracks[pair.track]? = some track ∧
      cost? tracker.settings track pair.detection = some pair.cost

/-- All pairs that may be matched are considered, and no others. -/
theorem mem_all : pair ∈ all tracker detections ↔ Allowed tracker detections pair := by
  unfold all Allowed
  simp only [List.mem_flatMap, List.mem_filterMap, Option.map_eq_some_iff, Prod.exists,
    List.mk_mem_zipIdx_iff_getElem?]
  constructor
  · rintro ⟨track, place, htrack, detection, position, hdetection, cost, hcost, rfl⟩
    exact ⟨hdetection, track, htrack, hcost⟩
  · rintro ⟨hdetection, track, htrack, hcost⟩
    exact ⟨track, pair.track, htrack, pair.detection, pair.position, hdetection, pair.cost, hcost, rfl⟩

/-- A place is considered once. -/
theorem pairwise_all (tracker : Tracker α) (detections : List (Detection α)) :
    (all tracker detections).Pairwise fun a b => a.track ≠ b.track ∨ a.position ≠ b.position := by
  refine List.pairwise_flatMap.mpr ⟨fun placed _ => ?_, ?_⟩
  · refine List.pairwise_filterMap.mpr ((pairwise_zipIdx detections).imp ?_)
    intro first second hlt a ha b hb
    obtain ⟨cost, -, rfl⟩ := Option.map_eq_some_iff.mp ha
    obtain ⟨cost', -, rfl⟩ := Option.map_eq_some_iff.mp hb
    exact .inr hlt.ne
  · refine (pairwise_zipIdx tracker.tracks).imp ?_
    intro first second hlt a ha b hb
    obtain ⟨placed, -, ha⟩ := List.mem_filterMap.mp ha
    obtain ⟨placed', -, hb⟩ := List.mem_filterMap.mp hb
    obtain ⟨cost, -, rfl⟩ := Option.map_eq_some_iff.mp ha
    obtain ⟨cost', -, rfl⟩ := Option.map_eq_some_iff.mp hb
    exact .inl hlt.ne

/-- However the pairs are sorted, there are no ties. -/
theorem pairwise_earlier_of_sorted {sorted : List (Candidate α)} (hperm : sorted.Perm (all tracker detections))
    (hsorted : sorted.Pairwise fun a b => comesBefore a b = true) : sorted.Pairwise Earlier := by
  have hplaces := (hperm.pairwise_iff (fun h => h.imp Ne.symm Ne.symm)).mpr (pairwise_all tracker detections)
  exact hsorted.imp₂ (fun a b => earlier_of_comesBefore) hplaces

/-- The pairs come in a strict order. -/
theorem pairwise_mergeSort_all (tracker : Tracker α) (detections : List (Detection α)) :
    ((all tracker detections).mergeSort comesBefore).Pairwise Earlier :=
  pairwise_earlier_of_sorted (List.mergeSort_perm _ _)
    (List.pairwise_mergeSort comesBefore_trans comesBefore_total _)

/-- The way the pairs are sorted does not matter. -/
theorem matched_eq_of_sorted {sorted : List (Candidate α)} (hperm : sorted.Perm (all tracker detections))
    (hsorted : sorted.Pairwise fun a b => comesBefore a b = true) :
    matched tracker detections = sorted.foldl take [] := by
  have hsame : (all tracker detections).mergeSort comesBefore = sorted :=
    ((List.mergeSort_perm _ _).trans hperm.symm).eq_of_pairwise (fun a b _ _ hab hba => absurd hba (asymm hab))
      (pairwise_mergeSort_all tracker detections) (pairwise_earlier_of_sorted hperm hsorted)
  rw [matched, hsame]

/-! ### The pairs that are matched -/

omit [Analytic α] in
/-- Pairs conflict if they share a track or a detection. -/
theorem conflicts_eq_true_iff : conflicts a b = true ↔ a.track = b.track ∨ a.position = b.position := by
  simp [conflicts]

/-- The matching is the greedy choice among the pairs that may be matched. -/
theorem isGreedy_matched (tracker : Tracker α) (detections : List (Detection α)) :
    IsGreedy Earlier conflicts {pair | Allowed tracker detections pair}
      {pair | pair ∈ matched tracker detections} := by
  have hgreedy : IsGreedy Earlier conflicts {pair | pair ∈ (all tracker detections).mergeSort comesBefore}
      {pair | pair ∈ matched tracker detections} :=
    isGreedy_foldl_greedily (pairwise_mergeSort_all tracker detections)
  simpa only [List.mem_mergeSort, mem_all] using hgreedy

/-- What is matched may be matched. -/
theorem allowed_of_mem_matched (hpair : pair ∈ matched tracker detections) : Allowed tracker detections pair :=
  (isGreedy_matched tracker detections).subset hpair

/-- Matched pairs share neither tracks nor detections. -/
theorem pairwise_matched (tracker : Tracker α) (detections : List (Detection α)) :
    (matched tracker detections).Pairwise fun a b => a.track ≠ b.track ∧ a.position ≠ b.position := by
  have hordered : (matched tracker detections).reverse.Pairwise Earlier :=
    (pairwise_mergeSort_all tracker detections).sublist (reverse_foldl_greedily_sublist conflicts _)
  have hgreedy := isGreedy_matched tracker detections
  refine (List.pairwise_reverse.mp hordered).imp_of_mem fun {a b} ha hb hearlier => ?_
  have hfree : ¬(b.track = a.track ∨ b.position = a.position) := by
    intro hshared
    refine (hgreedy.notMem_iff a (hgreedy.subset ha)).mpr ⟨b, hb, hearlier, ?_⟩ ha
    exact conflicts_eq_true_iff.mpr hshared
  exact ⟨fun h => hfree (.inl h.symm), fun h => hfree (.inr h.symm)⟩

/-- A track or a detection is in one matched pair at most. -/
theorem eq_of_shared (ha : a ∈ matched tracker detections) (hb : b ∈ matched tracker detections)
    (hshared : a.track = b.track ∨ a.position = b.position) : a = b := by
  by_contra hne
  have hsymm : Std.Symm fun a b : Candidate α => a.track ≠ b.track ∧ a.position ≠ b.position :=
    ⟨fun _ _ h => ⟨h.1.symm, h.2.symm⟩⟩
  have hapart := (pairwise_matched tracker detections).forall ha hb hne
  exact hshared.elim hapart.1 hapart.2

/-! ### The whole of it -/

/-- A set of pairs is a stable matching: its pairs may be matched, no two share a track or a detection, and
a pair that may be matched is left out exactly if a pair of the set comes before it and shares its track or
its detection. -/
structure StableMatching (tracker : Tracker α) (detections : List (Detection α)) (pairs : Set (Candidate α)) :
    Prop where
  allowed : ∀ pair ∈ pairs, Allowed tracker detections pair
  apart : ∀ pair ∈ pairs, ∀ other ∈ pairs,
    pair.track = other.track ∨ pair.position = other.position → pair = other
  left_out_iff : ∀ pair, Allowed tracker detections pair → (pair ∉ pairs ↔
    ∃ other ∈ pairs, Earlier other pair ∧ (other.track = pair.track ∨ other.position = pair.position))

/-- A stable matching is a greedy choice. -/
theorem StableMatching.isGreedy {pairs : Set (Candidate α)} (hpairs : StableMatching tracker detections pairs) :
    IsGreedy Earlier conflicts {pair | Allowed tracker detections pair} pairs :=
  ⟨hpairs.allowed, by simpa only [conflicts_eq_true_iff, Set.mem_ofPred_eq] using hpairs.left_out_iff⟩

/-- Whatever the tracks and detections, the pairs that are matched form a stable matching, each is matched
once, no pair that may be matched is left with both its track and its detection unmatched, and there is no
other stable matching. -/
theorem matched_unique_stable (tracker : Tracker α) (detections : List (Detection α)) :
    StableMatching tracker detections {pair | pair ∈ matched tracker detections} ∧
    (matched tracker detections).Nodup ∧
    (∀ pair, Allowed tracker detections pair → ∃ other ∈ matched tracker detections,
      other.track = pair.track ∨ other.position = pair.position) ∧
    ∀ pairs, StableMatching tracker detections pairs →
      pairs = {pair | pair ∈ matched tracker detections} := by
  have hgreedy := isGreedy_matched tracker detections
  refine ⟨⟨hgreedy.subset, fun pair hpair other hother => eq_of_shared hpair hother, ?_⟩, ?_, ?_, ?_⟩
  · simpa only [conflicts_eq_true_iff, Set.mem_ofPred_eq] using hgreedy.notMem_iff
  · refine (pairwise_matched tracker detections).imp fun {a b} hapart heq => hapart.1 ?_
    rw [heq]
  · intro pair hpair
    by_cases hmatched : pair ∈ matched tracker detections
    · exact ⟨pair, hmatched, .inl rfl⟩
    · obtain ⟨other, hother, -, hblocks⟩ := (hgreedy.notMem_iff pair hpair).mp hmatched
      exact ⟨other, hother, conflicts_eq_true_iff.mp hblocks⟩
  · intro pairs hpairs
    have hfinite : {pair | Allowed tracker detections pair}.Finite := by
      simpa only [mem_all] using (all tracker detections).finite_toSet
    exact hpairs.isGreedy.eq hfinite hgreedy

/-- A box that two tracks have. -/
def sharedBox : Box Float := ⟨0, 0, 10, 10⟩

/-- Two tracks with one box. -/
def twins : Tracker Float :=
  ⟨.standard, [⟨1, sharedBox, [], 1, 0, .tentative⟩, ⟨2, sharedBox, [], 1, 0, .tentative⟩], 3⟩

/-- The box of the tracks, and the same box moved by one pixel. -/
def nearbyBoxes : List (Detection Float) := [⟨sharedBox, 1, []⟩, ⟨⟨1, 0, 10, 10⟩, 1, []⟩]

/-- The second track with the first detection. -/
def tiedPair : Candidate Float := ⟨0, 1, 0, ⟨sharedBox, 1, []⟩⟩

/-- Each track with the detection at its own position. -/
def straightPairs : List (Candidate Float) :=
  [⟨1 - 90 / 110, 1, 1, ⟨⟨1, 0, 10, 10⟩, 1, []⟩⟩, ⟨0, 0, 0, ⟨sharedBox, 1, []⟩⟩]

/-- All pairs of the two tracks and the two detections, sorted. -/
def sortedPairs : List (Candidate Float) :=
  [⟨0, 0, 0, ⟨sharedBox, 1, []⟩⟩, tiedPair, ⟨1 - 90 / 110, 0, 1, ⟨⟨1, 0, 10, 10⟩, 1, []⟩⟩,
    ⟨1 - 90 / 110, 1, 1, ⟨⟨1, 0, 10, 10⟩, 1, []⟩⟩]

/-- Of two pairs that cost the same, the one of the earlier track is matched. -/
theorem matched_unique_stable_tied :
    matched twins nearbyBoxes = straightPairs ∧
    Allowed twins nearbyBoxes tiedPair ∧
    (∃ other ∈ straightPairs, other.track = tiedPair.track ∨ other.position = tiedPair.position) ∧
    (∃ other ∈ straightPairs,
      Earlier other tiedPair ∧ (other.track = tiedPair.track ∨ other.position = tiedPair.position)) ∧
    StableMatching twins nearbyBoxes {pair | pair ∈ straightPairs} ∧
    {pair | pair ∈ straightPairs} = {pair | pair ∈ matched twins nearbyBoxes} := by
  have hperm : sortedPairs.Perm (all twins nearbyBoxes) := by decide +kernel
  have hmatched : matched twins nearbyBoxes = straightPairs := by
    rw [matched_eq_of_sorted hperm (by decide +kernel)]
    decide +kernel
  have hallowed : Allowed twins nearbyBoxes tiedPair :=
    ⟨rfl, ⟨2, sharedBox, [], 1, 0, .tentative⟩, rfl, by decide +kernel⟩
  have hleft : tiedPair ∉ straightPairs := by decide +kernel
  obtain ⟨hstable, -, hmaximal, hunique⟩ := matched_unique_stable twins nearbyBoxes
  have hexplicit : StableMatching twins nearbyBoxes {pair | pair ∈ straightPairs} := hmatched ▸ hstable
  refine ⟨hmatched, hallowed, hmatched ▸ hmaximal tiedPair hallowed, ?_, hexplicit, hunique _ hexplicit⟩
  exact (hexplicit.left_out_iff tiedPair hallowed).mp hleft

end Candidate

end PrivateFootage
