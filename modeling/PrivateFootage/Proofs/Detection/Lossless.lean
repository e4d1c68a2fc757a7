import Mathlib
import PrivateFootage.Proofs.Detection.Suppression
import PrivateFootage.Proofs.ExactArithmetic

/-!
# A limit that lets every row pass

No box covers more than the whole of another, edges included, wherever the two lie. So a filter that allows
full coverage keeps every row that is confident enough. It only sorts them: the most confident first, and of
rows with one confidence the later ones first. Boxes are measured in exact arithmetic, and their widths and
heights are not negative.
-/

namespace PrivateFootage

/-! ### Shares of a box -/

/-- The common part of two stretches, with a margin at the end, is no longer than one of them. -/
theorem shared_le {start stop start' stop' margin : ℚ} (hstretch : start' ≤ stop') (hmargin : 0 ≤ margin) :
    Scalar.larger (Scalar.smaller stop stop' - Scalar.larger start start' + margin) 0 ≤
      stop' - start' + margin := by
  have hstop := min_le_right stop stop'
  have hstart := le_max_right start start'
  rw [Exact.larger_eq_max, Exact.smaller_eq_min, Exact.larger_eq_max]
  exact max_le (by linarith) (by linarith)

/-- A box is covered by no more than the whole of it. -/
theorem Box.coverage_le_one {above below : Box ℚ} (hwidth : 0 ≤ below.width) (hheight : 0 ≤ below.height) :
    coverage above below ≤ 1 := by
  have hsides : below.left ≤ below.right := le_add_of_nonneg_right hwidth
  have hends : below.top ≤ below.bottom := le_add_of_nonneg_right hheight
  have hshared : 0 ≤ sharedHeight 1 above below := by
    rw [sharedHeight, Exact.larger_eq_max]
    exact le_max_right _ _
  rw [coverage, div_le_one (mul_pos (by linarith) (by linarith))]
  exact mul_le_mul (shared_le hsides zero_le_one) (shared_le hends zero_le_one) hshared (by linarith)

/-! ### Rows and their ranking -/

section Ranking

variable {α : Type} [Scalar α]

/-- The detection of a row, at the position of the row. -/
def Row.placed (row : Row α × ℕ) : Placed α := (row.1.detection, row.2)

/-- Along rising positions, an earlier place has the smaller position. -/
theorem le_iff_of_rising {β : Type} {items : List (β × ℕ)} (hrising : items.Pairwise fun a b => a.2 < b.2)
    {i j : ℕ} {a b : β × ℕ} (ha : items[i]? = some a) (hb : items[j]? = some b) : i ≤ j ↔ a.2 ≤ b.2 := by
  obtain ⟨hi, rfl⟩ := List.getElem?_eq_some_iff.mp ha
  obtain ⟨hj, rfl⟩ := List.getElem?_eq_some_iff.mp hb
  have hlt := List.pairwise_iff_getElem.mp hrising
  rcases lt_trichotomy i j with hij | rfl | hji
  · exact iff_of_true hij.le (hlt i j hi hj hij).le
  · exact iff_of_true le_rfl le_rfl
  · exact iff_of_false hji.not_ge (hlt j i hj hi hji).not_ge

/-- Rows at rising positions are ranked as if they stood side by side. -/
theorem map_fst_ranked {rows : List (Row α × ℕ)} (hrising : rows.Pairwise fun a b => a.2 < b.2) :
    (ranked (rows.map fun row => row.1.detection)).map Prod.fst =
      (rows.mergeSort fun a b => ranksAbove (Row.placed a) (Row.placed b)).map fun row => row.1.detection := by
  -- Rank the rows together with their places among each other, and forget one kind of position or the other.
  have hplaces : (rows.zipIdx.mergeSort fun a b =>
        ranksAbove (a.1.1.detection, a.2) (b.1.1.detection, b.2)).map (fun row => (row.1.1.detection, row.2)) =
      ranked (rows.map fun row => row.1.detection) := by
    rw [ranked, List.zipIdx_map]
    exact List.map_mergeSort fun _ _ _ _ => rfl
  have hpositions : (rows.zipIdx.mergeSort fun a b =>
        ranksAbove (a.1.1.detection, a.2) (b.1.1.detection, b.2)).map Prod.fst =
      rows.mergeSort fun a b => ranksAbove (Row.placed a) (Row.placed b) := by
    rw [List.map_mergeSort, List.zipIdx_map_fst]
    intro a ha b hb
    have hle := le_iff_of_rising hrising (List.mem_zipIdx_iff_getElem?.mp hb) (List.mem_zipIdx_iff_getElem?.mp ha)
    rw [ranksAbove, decide_eq_decide.mpr hle]
    rfl
  rw [← hplaces, ← hpositions, List.map_map, List.map_map]
  rfl

namespace Filter

variable {filter : Filter α} {rows : Frame α}

/-- The detections that a filter chooses from are those of the rows that pass, in the order of their
ranking. -/
theorem candidates_eq (filter : Filter α) (rows : Frame α) :
    filter.candidates rows = ((rows.zipIdx.filter fun row => filter.passes row.1).mergeSort fun a b =>
      ranksAbove (Row.placed a) (Row.placed b)).map fun row => row.1.detection := by
  have hrising : (rows.zipIdx.filter fun row => filter.passes row.1).Pairwise fun a b => a.2 < b.2 :=
    (pairwise_zipIdx rows).filter _
  have hpassing : (rows.filter filter.passes).map Row.detection =
      (rows.zipIdx.filter fun row => filter.passes row.1).map fun row => row.1.detection := by
    conv_lhs => rw [← List.zipIdx_map_fst 0 rows, List.filter_map, List.map_map]
    rfl
  rw [candidates, hpassing, map_fst_ranked hrising]

/-- Rows that pass are ranked without ties. -/
theorem pairwise_outranks_rows (filter : Filter α) (rows : Frame α) :
    ((rows.zipIdx.filter fun row => filter.passes row.1).mergeSort fun a b =>
      ranksAbove (Row.placed a) (Row.placed b)).Pairwise fun a b => Outranks (Row.placed a) (Row.placed b) := by
  have hpositions : (rows.zipIdx.filter fun row => filter.passes row.1).Pairwise fun a b => a.2 ≠ b.2 :=
    ((pairwise_zipIdx rows).imp Nat.ne_of_lt).filter _
  refine List.pairwise_map.mp (pairwise_outranks_of_sorted (List.pairwise_map.mpr ?_) (List.pairwise_map.mpr ?_))
  · exact List.pairwise_mergeSort (fun a b c => ranksAbove_trans (Row.placed a) (Row.placed b) (Row.placed c))
      (fun a b => ranksAbove_total (Row.placed a) (Row.placed b)) _
  · exact ((List.mergeSort_perm _ _).pairwise_iff Ne.symm).mpr hpositions

/-- If no row covers more of another than allowed, the filter leaves all rows that pass. -/
theorem apply_eq_candidates
    (hwithin : ∀ above ∈ rows, ∀ below ∈ rows, Box.coverage above.box below.box ≤ filter.maxOverlap) :
    filter.apply rows = filter.candidates rows := by
  rw [apply_eq_dropBlocked, candidates_eq]
  refine dropBlocked_of_free (List.pairwise_map.mpr (List.pairwise_of_forall_mem_list ?_))
  intro above habove below hbelow
  rw [List.mem_mergeSort, List.mem_filter] at habove hbelow
  have hle := hwithin above.1 (List.fst_mem_of_mem_zipIdx habove.1) below.1 (List.fst_mem_of_mem_zipIdx hbelow.1)
  exact coversTooMuch_eq_false_iff.mpr hle

end Filter

end Ranking

/-! ### The whole of it -/

/-- In exact arithmetic, a row ranks above another if its confidence is higher, or equal and the row further
back. -/
theorem outranks_exact_iff {a b : Row ℚ × ℕ} : Outranks (Row.placed a) (Row.placed b) ↔
    b.1.confidence < a.1.confidence ∨ a.1.confidence = b.1.confidence ∧ b.2 < a.2 := by
  have hprecedes (x y : ℚ) : Scalar.precedes x y = decide (x ≤ y) := rfl
  simp only [Outranks, Row.placed, Row.detection, hprecedes, decide_eq_false_iff_not, decide_eq_true_eq, not_le]
  constructor
  · rintro (hless | ⟨hle, hposition⟩)
    · exact .inl hless
    · exact hle.lt_or_eq.imp_right fun heq => ⟨heq.symm, hposition⟩
  · rintro (hless | ⟨heq, hposition⟩)
    · exact .inl hless
    · exact .inr ⟨heq.ge, hposition⟩

/-- A filter that allows full coverage, on rows whose widths and heights are not negative, leaves exactly the
rows that are confident enough, each of them once, the most confident first, and of rows with one confidence
the later ones first. -/
theorem Filter.apply_lossless (filter : Filter ℚ) (rows : Frame ℚ) (hlimit : 1 ≤ filter.maxOverlap)
    (hsizes : ∀ row ∈ rows, 0 ≤ row.box.width ∧ 0 ≤ row.box.height) :
    ∃ placed : List (Row ℚ × ℕ),
      placed.Perm (rows.zipIdx.filter fun row => decide (filter.confidenceThreshold ≤ row.1.confidence)) ∧
      placed.Pairwise (fun a b => b.1.confidence < a.1.confidence ∨
        a.1.confidence = b.1.confidence ∧ b.2 < a.2) ∧
      filter.apply rows = placed.map fun row => row.1.detection := by
  have hwithin : ∀ above ∈ rows, ∀ below ∈ rows, Box.coverage above.box below.box ≤ filter.maxOverlap :=
    fun above _ below hbelow =>
      (Box.coverage_le_one (hsizes below hbelow).1 (hsizes below hbelow).2).trans hlimit
  refine ⟨_, List.mergeSort_perm _ fun a b => ranksAbove (Row.placed a) (Row.placed b), ?_, ?_⟩
  · exact (filter.pairwise_outranks_rows rows).imp outranks_exact_iff.mp
  · rw [apply_eq_candidates hwithin]
    exact candidates_eq filter rows

/-- A filter for confidences of at least one half that allows full coverage. -/
def lenientFilter : Filter ℚ := ⟨1 / 2, 1⟩

/-- A box with three rows, of which the second is not confident enough, and a small box inside it. -/
def nestedRows : Frame ℚ :=
  [⟨0, 0, ⟨0, 0, 10, 10⟩, 9 / 10, []⟩, ⟨0, 0, ⟨0, 0, 10, 10⟩, 1 / 4, []⟩, ⟨0, 0, ⟨0, 0, 10, 10⟩, 9 / 10, [1]⟩,
    ⟨0, 0, ⟨4, 4, 0, 2⟩, 3 / 5, []⟩]

/-- The box hides neither its double nor the small box inside it. -/
theorem Filter.apply_lossless_nested :
    1 ≤ lenientFilter.maxOverlap ∧ (∀ row ∈ nestedRows, 0 ≤ row.box.width ∧ 0 ≤ row.box.height) ∧
    lenientFilter.apply nestedRows = [⟨⟨0, 0, 10, 10⟩, 9 / 10, [9 / 10, 1]⟩, ⟨⟨0, 0, 10, 10⟩, 9 / 10, [9 / 10]⟩,
      ⟨⟨4, 4, 0, 2⟩, 3 / 5, [3 / 5]⟩] := by
  have hlimit : 1 ≤ lenientFilter.maxOverlap := le_rfl
  have hsizes : ∀ row ∈ nestedRows, 0 ≤ row.box.width ∧ 0 ≤ row.box.height := by decide +kernel
  refine ⟨hlimit, hsizes, ?_⟩
  obtain ⟨placed, hperm, hranked, happly⟩ := apply_lossless lenientFilter nestedRows hlimit hsizes
  have hplaced : placed = [(⟨0, 0, ⟨0, 0, 10, 10⟩, 9 / 10, [1]⟩, 2), (⟨0, 0, ⟨0, 0, 10, 10⟩, 9 / 10, []⟩, 0),
      (⟨0, 0, ⟨4, 4, 0, 2⟩, 3 / 5, []⟩, 3)] := by
    refine (hperm.trans ?_).eq_of_pairwise ?_ hranked ?_
    · decide +kernel
    · intro a b _ _ hab hba
      rw [← outranks_exact_iff] at hab hba
      exact absurd hba (asymm hab)
    · decide +kernel
  rw [happly, hplaced]
  rfl

end PrivateFootage
