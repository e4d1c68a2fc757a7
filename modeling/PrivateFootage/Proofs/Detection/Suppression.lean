import Mathlib
import PrivateFootage.Detection.Filter
import PrivateFootage.Double
import PrivateFootage.Proofs.Greedy
import PrivateFootage.Proofs.KeyOrder

/-!
# Which detections stay

Detections rank by confidence in the total order of numbers, and of two with the same confidence the later one
ranks above. From the top of the ranking down, a detection stays unless one that stays covers too much of it.
A share that is no number counts as too much. What stays can be told without the walk: a detection goes exactly
if one that stays ranks above it and covers too much of it, so that a detection that has gone drives out no
other. No other list is like that.
-/

namespace PrivateFootage

variable {α : Type} [Scalar α] {detections : List (Detection α)} {maxOverlap : α} {a b placed : Placed α}
  {sorted kept : List (Placed α)}

/-! ### The ranking -/

/-- A detection ranks above another: it is more confident, or not less confident and further back. -/
def Outranks (a b : Placed α) : Prop :=
  Scalar.precedes a.1.confidence b.1.confidence = false ∨
    Scalar.precedes b.1.confidence a.1.confidence = true ∧ b.2 < a.2

/-- The confidence of a detection. -/
def Placed.confidence (placed : Placed α) : α := placed.1.confidence

/-- The ranking is the order by confidence and position, turned around. -/
theorem outranks_iff_byKey : Outranks a b ↔ ByKey Placed.confidence (fun a b => a.2 < b.2) b a := by
  rw [byKey_iff]
  rfl

/-- Detections are sorted by confidence and position, turned around. -/
theorem ranksAbove_eq_true_iff :
    ranksAbove a b = true ↔ ByKey Placed.confidence (fun a b => a.2 ≤ b.2) b a := by
  rw [byKey_iff]
  unfold ranksAbove Placed.confidence
  split_ifs with hab
  · simp [hab]
  · simp [hab]

/-- Detections are sorted in a transitive order. -/
theorem ranksAbove_trans (a b c : Placed α) (hab : ranksAbove a b = true) (hbc : ranksAbove b c = true) :
    ranksAbove a c = true := by
  rw [ranksAbove_eq_true_iff] at hab hbc ⊢
  exact hbc.trans le_trans hab

/-- Any two detections can be sorted. -/
theorem ranksAbove_total (a b : Placed α) : (ranksAbove a b || ranksAbove b a) = true := by
  rw [Bool.or_eq_true, ranksAbove_eq_true_iff, ranksAbove_eq_true_iff]
  exact byKey_total (Nat.le_total _ _)

/-- No detection ranks above itself, and the ranking is transitive. -/
instance isStrictOrder_outranks : IsStrictOrder (Placed α) Outranks where
  irrefl a := by
    rw [outranks_iff_byKey]
    exact byKey_irrefl (Nat.lt_irrefl _)
  trans a b c hab hbc := by
    rw [outranks_iff_byKey] at hab hbc ⊢
    exact hbc.trans Nat.lt_trans hab

/-- Detections that are sorted and stand at different positions are ranked. -/
theorem pairwise_outranks_of_sorted (hsorted : sorted.Pairwise fun a b => ranksAbove a b = true)
    (hpositions : sorted.Pairwise fun a b => a.2 ≠ b.2) : sorted.Pairwise Outranks := by
  refine hsorted.imp₂ (fun a b hab hne => ?_) hpositions
  exact outranks_iff_byKey.mpr ((ranksAbove_eq_true_iff.mp hab).imp fun hle => by omega)

omit [Scalar α] in
/-- However the detections are sorted, they stand at different positions. -/
theorem pairwise_positions (hperm : sorted.Perm detections.zipIdx) : sorted.Pairwise fun a b => a.2 ≠ b.2 :=
  (hperm.pairwise_iff Ne.symm).mpr ((pairwise_zipIdx detections).imp Nat.ne_of_lt)

/-- The detections are ranked from the top. -/
theorem pairwise_ranked (detections : List (Detection α)) : (ranked detections).Pairwise Outranks :=
  pairwise_outranks_of_sorted (List.pairwise_mergeSort ranksAbove_trans ranksAbove_total _)
    (pairwise_positions (List.mergeSort_perm _ _))

/-- The way the detections are sorted does not matter. -/
theorem ranked_eq_of_sorted (hperm : sorted.Perm detections.zipIdx)
    (hsorted : sorted.Pairwise fun a b => ranksAbove a b = true) : ranked detections = sorted :=
  ((List.mergeSort_perm _ _).trans hperm.symm).eq_of_pairwise (fun _ _ _ _ hab hba => absurd hba (asymm hab))
    (pairwise_ranked detections) (pairwise_outranks_of_sorted hsorted (pairwise_positions hperm))

/-- Every detection is ranked at its position. -/
theorem mem_ranked : placed ∈ ranked detections ↔ detections[placed.2]? = some placed.1 := by
  rw [ranked, List.mem_mergeSort, List.mem_zipIdx_iff_getElem?]

/-! ### What is covered -/

/-- Whether a detection covers more of another than allowed, or a share of it that is no number. -/
def coversTooMuch (maxOverlap : α) (above below : Detection α) : Bool :=
  !decide (Box.coverage above.box below.box ≤ maxOverlap)

/-- A share within the limit is not too much. -/
theorem coversTooMuch_eq_false_iff {above below : Detection α} :
    coversTooMuch maxOverlap above below = false ↔ Box.coverage above.box below.box ≤ maxOverlap := by
  simp [coversTooMuch]

/-- A share that is not within the limit is too much. -/
theorem coversTooMuch_eq_true_iff {above below : Detection α} :
    coversTooMuch maxOverlap above below = true ↔ ¬Box.coverage above.box below.box ≤ maxOverlap := by
  simp [coversTooMuch]

/-- A detection is kept unless one that is kept covers too much of it. -/
theorem keepUncovered_eq (maxOverlap : α) : keepUncovered maxOverlap =
    greedily fun above below : Placed α => coversTooMuch maxOverlap above.1 below.1 := by
  funext kept next
  simp only [keepUncovered, greedily, coversTooMuch, List.any_eq_not_all_not, Bool.not_not, Bool.not_eq_true']
  cases kept.all fun above => decide (Box.coverage above.1.box next.1.box ≤ maxOverlap) <;> rfl

/-- What stays can be had by taking the highest ranking detection, dropping those that it covers too much of,
and going on with those that are left. -/
theorem suppress_eq_dropBlocked (detections : List (Detection α)) (maxOverlap : α) :
    suppress detections maxOverlap =
      dropBlocked (fun above below => coversTooMuch maxOverlap above.1 below.1) (ranked detections) := by
  rw [suppress, keepUncovered_eq, dropBlocked_eq]

/-- Whether a row is confident enough for a filter. -/
def Filter.passes (filter : Filter α) (row : Row α) : Bool :=
  decide (filter.confidenceThreshold ≤ row.confidence)

/-- The detections of the rows of a frame that are confident enough, the highest ranking first. -/
def Filter.candidates (filter : Filter α) (rows : Frame α) : List (Detection α) :=
  (ranked ((rows.filter filter.passes).map Row.detection)).map Prod.fst

/-- What a filter leaves depends on the positions of rows only as far as the ranking does. -/
theorem Filter.apply_eq_dropBlocked (filter : Filter α) (rows : Frame α) :
    filter.apply rows = dropBlocked (coversTooMuch filter.maxOverlap) (filter.candidates rows) := by
  unfold apply
  dsimp only
  rw [suppress_eq_dropBlocked]
  exact map_dropBlocked Prod.fst _

/-- What stays is ranked as it was. -/
theorem suppress_sublist_ranked (detections : List (Detection α)) (maxOverlap : α) :
    (suppress detections maxOverlap).Sublist (ranked detections) := by
  rw [suppress, keepUncovered_eq]
  exact reverse_foldl_greedily_sublist _ _

/-- What stays is the greedy choice among the detections. -/
theorem isGreedy_suppress (detections : List (Detection α)) (maxOverlap : α) :
    IsGreedy Outranks (fun above below => coversTooMuch maxOverlap above.1 below.1)
      {placed | detections[placed.2]? = some placed.1} {placed | placed ∈ suppress detections maxOverlap} := by
  have hgreedy : IsGreedy Outranks (fun above below => coversTooMuch maxOverlap above.1 below.1)
      {placed | placed ∈ ranked detections} {placed | placed ∈ suppress detections maxOverlap} := by
    simpa only [suppress, keepUncovered_eq, List.mem_reverse] using
      isGreedy_foldl_greedily (pairwise_ranked detections)
  simpa only [mem_ranked] using hgreedy

/-! ### The whole of it -/

/-- A list of detections with their positions is what stays: each stands at its position, no position comes
twice, the list is ranked, and a detection is in it exactly if none in it ranks above that detection and covers
a share of it that is not within the limit. -/
structure IsSuppression (detections : List (Detection α)) (maxOverlap : α) (kept : List (Placed α)) : Prop where
  getElem?_eq : ∀ placed ∈ kept, detections[placed.2]? = some placed.1
  nodup_positions : (kept.map Prod.snd).Nodup
  descending : kept.Pairwise Outranks
  mem_iff : ∀ below, detections[below.2]? = some below.1 →
    (below ∈ kept ↔ ¬∃ above ∈ kept, Outranks above below ∧ ¬Box.coverage above.1.box below.1.box ≤ maxOverlap)

/-- A list of what stays is a greedy choice. -/
theorem IsSuppression.isGreedy (hkept : IsSuppression detections maxOverlap kept) :
    IsGreedy Outranks (fun above below => coversTooMuch maxOverlap above.1 below.1)
      {placed | detections[placed.2]? = some placed.1} {placed | placed ∈ kept} := by
  refine ⟨hkept.getElem?_eq, fun below hbelow => ?_⟩
  simpa only [not_not, coversTooMuch_eq_true_iff, Set.mem_ofPred_eq] using (hkept.mem_iff below hbelow).not

/-- No position is ranked twice. -/
theorem nodup_positions_ranked (detections : List (Detection α)) : ((ranked detections).map Prod.snd).Nodup :=
  List.pairwise_map.mpr (pairwise_positions (List.mergeSort_perm _ _))

/-- What the walk keeps is what stays. -/
theorem isSuppression_suppress (detections : List (Detection α)) (maxOverlap : α) :
    IsSuppression detections maxOverlap (suppress detections maxOverlap) where
  getElem?_eq := (isGreedy_suppress detections maxOverlap).subset
  nodup_positions :=
    ((suppress_sublist_ranked detections maxOverlap).map _).nodup (nodup_positions_ranked detections)
  descending := (pairwise_ranked detections).sublist (suppress_sublist_ranked detections maxOverlap)
  mem_iff below hbelow := by
    have hgone := (isGreedy_suppress detections maxOverlap).notMem_iff below hbelow
    rw [← not_iff_not, not_not]
    simpa only [coversTooMuch_eq_true_iff, Set.mem_ofPred_eq] using hgone

/-- Nothing else is what stays. -/
theorem IsSuppression.eq_suppress (hkept : IsSuppression detections maxOverlap kept) :
    kept = suppress detections maxOverlap := by
  have hsame := isSuppression_suppress detections maxOverlap
  have hfinite : {placed : Placed α | detections[placed.2]? = some placed.1}.Finite := by
    simpa only [mem_ranked] using (ranked detections).finite_toSet
  have hmem : {placed | placed ∈ kept} = {placed | placed ∈ suppress detections maxOverlap} :=
    hkept.isGreedy.eq hfinite hsame.isGreedy
  have hperm : kept.Perm (suppress detections maxOverlap) :=
    (List.perm_ext_iff_of_nodup hkept.nodup_positions.of_map hsame.nodup_positions.of_map).mpr
      fun placed => Set.ext_iff.mp hmem placed
  exact hperm.eq_of_pairwise (fun _ _ _ _ hab hba => absurd hba (asymm hab)) hkept.descending hsame.descending

/-- Whatever the detections and the limit, what stays can be had by taking the highest ranking detection,
dropping those that it covers too much of, and going on with those that are left. It is a list of detections
at their positions, no position twice, in strictly descending rank, and a detection is in it exactly if none in
it ranks above that detection and covers a share of it that is not within the limit. It is the only such
list. -/
theorem suppress_greedy_and_unique (detections : List (Detection α)) (maxOverlap : α) :
    suppress detections maxOverlap =
      dropBlocked (fun above below => coversTooMuch maxOverlap above.1 below.1) (ranked detections) ∧
    ∀ kept, IsSuppression detections maxOverlap kept ↔ kept = suppress detections maxOverlap := by
  refine ⟨suppress_eq_dropBlocked detections maxOverlap, fun kept => ?_⟩
  constructor
  · exact IsSuppression.eq_suppress
  · intro heq
    rw [heq]
    exact isSuppression_suppress detections maxOverlap

/-- Three boxes side by side, each of which covers half of the next. The first two have one confidence. -/
def rowOfBoxes : List (Detection Float) :=
  [⟨⟨10, 0, 10, 10⟩, 0.8, []⟩, ⟨⟨5, 0, 10, 10⟩, 0.8, []⟩, ⟨⟨0, 0, 10, 10⟩, 0.9, []⟩]

/-- The outer two of the boxes, the more confident one first. -/
def outerBoxes : List (Placed Float) :=
  [(⟨⟨0, 0, 10, 10⟩, 0.9, []⟩, 2), (⟨⟨10, 0, 10, 10⟩, 0.8, []⟩, 0)]

/-- The box in the middle ranks above the first one and covers half of it, but has gone itself. -/
theorem suppress_greedy_and_unique_row :
    suppress rowOfBoxes 0.3 = outerBoxes ∧
    Outranks (⟨⟨5, 0, 10, 10⟩, 0.8, []⟩, 1) (⟨⟨10, 0, 10, 10⟩, 0.8, []⟩, 0) ∧
    ¬Box.coverage (⟨5, 0, 10, 10⟩ : Box Float) ⟨10, 0, 10, 10⟩ ≤ 0.3 ∧
    IsSuppression rowOfBoxes 0.3 outerBoxes := by
  have hranked : ranked rowOfBoxes =
      [(⟨⟨0, 0, 10, 10⟩, 0.9, []⟩, 2), (⟨⟨5, 0, 10, 10⟩, 0.8, []⟩, 1), (⟨⟨10, 0, 10, 10⟩, 0.8, []⟩, 0)] :=
    ranked_eq_of_sorted (by decide +kernel) (by decide +kernel)
  have hkept : suppress rowOfBoxes 0.3 = outerBoxes := by
    rw [suppress, hranked]
    decide +kernel
  refine ⟨hkept, .inr ⟨by decide +kernel, by decide⟩, by decide +kernel, ?_⟩
  exact ((suppress_greedy_and_unique rowOfBoxes 0.3).2 outerBoxes).mpr hkept.symm

end PrivateFootage
