import Mathlib
import PrivateFootage.Proofs.ExactArithmetic
import PrivateFootage.Track.Matching

/-!
# Overlap as a measure of likeness

In exact arithmetic the overlap of two boxes, whose widths and heights are not negative, tells how much
alike they are. It is the same from both sides and lies between zero and one. It is positive exactly if the
insides of the boxes have an area in common, and one exactly if the boxes are the same and not flat. The cost
of a match is one less the overlap.

Both axes are treated alike, so most of it is about two stretches of a line.
-/

namespace PrivateFootage

open MeasureTheory

/-! ### Stretches of a line -/

/-- The length that two stretches of a line have in common. -/
def commonLength (start stop start' stop' : ℚ) : ℚ := max (min stop stop' - max start start') 0

variable {start stop start' stop' : ℚ}

/-- A common length is the same from both sides. -/
theorem commonLength_comm (start stop start' stop' : ℚ) :
    commonLength start stop start' stop' = commonLength start' stop' start stop := by
  rw [commonLength, commonLength, min_comm, max_comm start]

/-- A common length is not negative. -/
theorem commonLength_nonneg (start stop start' stop' : ℚ) : 0 ≤ commonLength start stop start' stop' :=
  le_max_right _ _

/-- No more is common to two stretches than the whole of one. -/
theorem commonLength_le (hstretch : start ≤ stop) : commonLength start stop start' stop' ≤ stop - start :=
  max_le (sub_le_sub (min_le_left _ _) (le_max_left _ _)) (sub_nonneg.mpr hstretch)

/-- A stretch of which all is common to another lies within the other. -/
theorem within_of_commonLength_eq (hstretch : start < stop)
    (hall : commonLength start stop start' stop' = stop - start) : start' ≤ start ∧ stop ≤ stop' := by
  have hpositive : 0 < commonLength start stop start' stop' := hall ▸ sub_pos.mpr hstretch
  have hcommon : commonLength start stop start' stop' = min stop stop' - max start start' :=
    (max_choice _ _).resolve_right hpositive.ne'
  have hstop := min_le_left stop stop'
  have hstart := le_max_left start start'
  have hstops : min stop stop' = stop := by linarith
  have hstarts : max start start' = start := by linarith
  exact ⟨max_eq_left_iff.mp hstarts, min_eq_left_iff.mp hstops⟩

/-- The common length is the length of what the insides of two stretches have in common. -/
theorem volume_Ioo_inter_Ioo (start stop start' stop' : ℚ) :
    volume (Set.Ioo (start : ℝ) stop ∩ Set.Ioo (start' : ℝ) stop') =
      ENNReal.ofReal (commonLength start stop start' stop') := by
  rw [Set.Ioo_inter_Ioo, Real.volume_Ioo, commonLength]
  push_cast
  rw [ENNReal.ofReal_max, ENNReal.ofReal_zero, max_eq_left zero_le]

/-! ### Boxes -/

namespace Box

/-- Neither the width nor the height of a box is negative. -/
structure IsProper (box : Box ℚ) : Prop where
  width_nonneg : 0 ≤ box.width
  height_nonneg : 0 ≤ box.height

/-- The points strictly inside a box. -/
def inside (box : Box ℚ) : Set (ℝ × ℝ) :=
  Set.Ioo (box.left : ℝ) box.right ×ˢ Set.Ioo (box.top : ℝ) box.bottom

/-- A box lies within another, edges included. -/
structure IsWithin (a b : Box ℚ) : Prop where
  left_le : b.left ≤ a.left
  right_le : a.right ≤ b.right
  top_le : b.top ≤ a.top
  bottom_le : a.bottom ≤ b.bottom

variable {a b : Box ℚ}

/-- The common part of two boxes has the common length of both axes as its sides. -/
theorem intersection_eq (a b : Box ℚ) :
    intersection a b = commonLength a.left a.right b.left b.right *
      commonLength a.top a.bottom b.top b.bottom := by
  simp only [intersection, commonLength, Exact.larger_eq_max, Exact.smaller_eq_min]

/-- A common part is the same from both sides. -/
theorem intersection_comm (a b : Box ℚ) : intersection a b = intersection b a := by
  rw [intersection_eq, intersection_eq, commonLength_comm a.left, commonLength_comm a.top]

/-- The area of a common part is not negative. -/
theorem intersection_nonneg (a b : Box ℚ) : 0 ≤ intersection a b := by
  rw [intersection_eq]
  exact mul_nonneg (commonLength_nonneg ..) (commonLength_nonneg ..)

/-- The common part of two boxes is the area of what their insides have in common. -/
theorem volume_inside_inter_inside (a b : Box ℚ) :
    volume (a.inside ∩ b.inside) = ENNReal.ofReal (intersection a b : ℚ) := by
  have hnonneg : (0 : ℝ) ≤ commonLength a.left a.right b.left b.right :=
    Rat.cast_nonneg.mpr (commonLength_nonneg ..)
  rw [inside, inside, Set.prod_inter_prod, Measure.volume_eq_prod, Measure.prod_prod, volume_Ioo_inter_Ioo,
    volume_Ioo_inter_Ioo, ← ENNReal.ofReal_mul hnonneg, intersection_eq, Rat.cast_mul]

/-- The width of a box is the distance of its sides. -/
theorem right_sub_left (box : Box ℚ) : box.right - box.left = box.width :=
  add_sub_cancel_left box.left box.width

/-- The height of a box is the distance of its ends. -/
theorem bottom_sub_top (box : Box ℚ) : box.bottom - box.top = box.height :=
  add_sub_cancel_left box.top box.height

/-- Boxes that lie within each other are the same. -/
theorem IsWithin.antisymm (hab : a.IsWithin b) (hba : b.IsWithin a) : a = b := by
  have hleft := le_antisymm hba.left_le hab.left_le
  have htop := le_antisymm hba.top_le hab.top_le
  have hwidth : a.width = b.width := by
    rw [← a.right_sub_left, ← b.right_sub_left, hleft, le_antisymm hab.right_le hba.right_le]
  have hheight : a.height = b.height := by
    rw [← a.bottom_sub_top, ← b.bottom_sub_top, htop, le_antisymm hab.bottom_le hba.bottom_le]
  cases a
  cases b
  rw [Box.mk.injEq]
  exact ⟨hleft, htop, hwidth, hheight⟩

namespace IsProper

/-- The width of a common part is at most that of a box. -/
theorem commonWidth_le (ha : a.IsProper) (b : Box ℚ) :
    commonLength a.left a.right b.left b.right ≤ a.width :=
  (commonLength_le (le_add_of_nonneg_right ha.width_nonneg)).trans_eq a.right_sub_left

/-- The height of a common part is at most that of a box. -/
theorem commonHeight_le (ha : a.IsProper) (b : Box ℚ) :
    commonLength a.top a.bottom b.top b.bottom ≤ a.height :=
  (commonLength_le (le_add_of_nonneg_right ha.height_nonneg)).trans_eq a.bottom_sub_top

/-- A common part is no larger than a box. -/
theorem intersection_le_area (ha : a.IsProper) (b : Box ℚ) : intersection a b ≤ a.area := by
  rw [intersection_eq]
  exact mul_le_mul (ha.commonWidth_le b) (ha.commonHeight_le b) (commonLength_nonneg ..) ha.width_nonneg

/-- What two boxes have in common is no more than what they cover together. -/
theorem intersection_le_union (ha : a.IsProper) (hb : b.IsProper) :
    intersection a b ≤ a.area + b.area - intersection a b := by
  have hfirst := ha.intersection_le_area b
  have hsecond := intersection_comm a b ▸ hb.intersection_le_area a
  linarith

/-- A box that is not flat and of which all is common to another lies within the other. -/
theorem isWithin_of_intersection_eq (ha : a.IsProper) (harea : 0 < a.area)
    (hall : intersection a b = a.area) : a.IsWithin b := by
  have hwidth : 0 < a.width := pos_of_mul_pos_left harea ha.height_nonneg
  have hheight : 0 < a.height := pos_of_mul_pos_right harea ha.width_nonneg
  -- Both sides of the common part are as long as those of the box, or it would be smaller.
  rw [← hall, intersection_eq] at harea
  rw [intersection_eq, area, mul_eq_mul_iff_eq_and_eq_of_pos (ha.commonWidth_le b) (ha.commonHeight_le b)
    (pos_of_mul_pos_left harea (commonLength_nonneg ..)) hheight] at hall
  obtain ⟨hwidths, hheights⟩ := hall
  rw [← a.right_sub_left] at hwidth hwidths
  rw [← a.bottom_sub_top] at hheight hheights
  obtain ⟨hleft, hright⟩ := within_of_commonLength_eq (sub_pos.mp hwidth) hwidths
  obtain ⟨htop, hbottom⟩ := within_of_commonLength_eq (sub_pos.mp hheight) hheights
  exact ⟨hleft, hright, htop, hbottom⟩

end IsProper

/-! ### Overlap -/

/-- Overlap is the same from both sides. -/
theorem overlap_comm (a b : Box ℚ) : overlap a b = overlap b a := by
  rw [overlap, overlap, intersection_comm, add_comm]

/-- Where two boxes have an area in common, the overlap is its share of what they cover together; elsewhere
it is zero. -/
theorem overlap_eq (ha : a.IsProper) (hb : b.IsProper) :
    overlap a b = intersection a b / (a.area + b.area - intersection a b) := by
  have hle := ha.intersection_le_union hb
  have hnonneg := intersection_nonneg a b
  rw [overlap]
  split_ifs with hunion
  · have hnone : intersection a b = 0 := by linarith
    rw [hnone, zero_div]
  · rfl

/-- Overlap is not negative. -/
theorem overlap_nonneg (ha : a.IsProper) (hb : b.IsProper) : 0 ≤ overlap a b := by
  have hnonneg := intersection_nonneg a b
  rw [overlap_eq ha hb]
  exact div_nonneg hnonneg (hnonneg.trans (ha.intersection_le_union hb))

/-- Overlap is at most one. -/
theorem overlap_le_one (ha : a.IsProper) (hb : b.IsProper) : overlap a b ≤ 1 := by
  have hle := ha.intersection_le_union hb
  rw [overlap_eq ha hb]
  exact div_le_one_of_le₀ hle ((intersection_nonneg a b).trans hle)

/-- Boxes overlap if they have an area in common. -/
theorem overlap_pos_iff (ha : a.IsProper) (hb : b.IsProper) : 0 < overlap a b ↔ 0 < intersection a b := by
  have hnonneg := intersection_nonneg a b
  have hle := ha.intersection_le_union hb
  rw [overlap_eq ha hb]
  constructor
  · intro hpositive
    exact hnonneg.lt_of_ne fun hnone => by rw [← hnone, zero_div] at hpositive; exact lt_irrefl _ hpositive
  · intro hcommon
    exact div_pos hcommon (hcommon.trans_le hle)

/-- A box that is not flat overlaps with itself entirely. -/
theorem overlap_self (ha : a.IsProper) (harea : 0 < a.area) : overlap a a = 1 := by
  have hall : intersection a a = a.area := by
    have hwidth : 0 ≤ a.right - a.left := a.right_sub_left ▸ ha.width_nonneg
    have hheight : 0 ≤ a.bottom - a.top := a.bottom_sub_top ▸ ha.height_nonneg
    rw [intersection_eq, commonLength, commonLength, min_self, max_self, max_eq_left hwidth, min_self, max_self,
      max_eq_left hheight, right_sub_left, bottom_sub_top, area]
  rw [overlap_eq ha ha, hall, add_sub_cancel_right, div_self harea.ne']

/-- Boxes overlap entirely only if they are the same and not flat. -/
theorem overlap_eq_one_iff (ha : a.IsProper) (hb : b.IsProper) : overlap a b = 1 ↔ a = b ∧ 0 < a.area := by
  constructor
  · intro hone
    have hfirst := ha.intersection_le_area b
    have hsecond := intersection_comm a b ▸ hb.intersection_le_area a
    have hcommon : 0 < intersection a b := (overlap_pos_iff ha hb).mp (hone ▸ one_pos)
    have hunion : a.area + b.area - intersection a b = intersection a b := by
      rw [overlap_eq ha hb] at hone
      exact (eq_of_div_eq_one hone).symm
    -- What is common to both is the whole of each, so each lies within the other.
    have hwithin := ha.isWithin_of_intersection_eq (b := b) (by linarith) (by linarith)
    have hwithin' := hb.isWithin_of_intersection_eq (b := a) (by linarith)
      (by rw [intersection_comm]; linarith)
    exact ⟨hwithin.antisymm hwithin', by linarith⟩
  · rintro ⟨rfl, harea⟩
    exact overlap_self ha harea

/-- Boxes overlap if their insides have an area in common. -/
theorem overlap_pos_iff_volume_pos (ha : a.IsProper) (hb : b.IsProper) :
    0 < overlap a b ↔ 0 < volume (a.inside ∩ b.inside) := by
  rw [overlap_pos_iff ha hb, volume_inside_inter_inside, ENNReal.ofReal_pos, Rat.cast_pos]

end Box

/-! ### The cost of a match -/

/-- Exact arithmetic with given functions for square roots and logarithms, which have no exact values. -/
abbrev exactAnalytic (sqrt ln : ℚ → ℚ) : Analytic ℚ := { exactScalar with sqrt, ln }

/-- The cost of a match that is allowed is one less the overlap. -/
theorem Candidate.cost_eq {sqrt ln : ℚ → ℚ} {settings : TrackerSettings ℚ} {track : Track ℚ}
    {detection : Detection ℚ} {cost : ℚ}
    (hcost : @Candidate.cost? ℚ (exactAnalytic sqrt ln) settings track detection = some cost) :
    cost = 1 - Box.overlap track.box detection.box := by
  unfold Candidate.cost? at hcost
  dsimp only at hcost
  split_ifs at hcost
  exact (Option.some.inj hcost).symm

/-- For boxes whose widths and heights are not negative, overlap is a proper measure: the same from both
sides, between zero and one, positive exactly if the insides have an area in common and, of boxes that are
not flat, one exactly if they are the same. So the cost of every match lies between zero and one, and is zero
only for a box like that of the track. -/
theorem Box.overlap_measures_likeness (a b : Box ℚ) (ha : a.IsProper) (hb : b.IsProper) :
    overlap a b = overlap b a ∧ 0 ≤ overlap a b ∧ overlap a b ≤ 1 ∧
      (0 < overlap a b ↔ 0 < volume (a.inside ∩ b.inside)) ∧
      (0 < a.area → 0 < b.area → (overlap a b = 1 ↔ a = b)) ∧
      ∀ (sqrt ln : ℚ → ℚ) (settings : TrackerSettings ℚ) (track : Track ℚ) (detection : Detection ℚ) (cost : ℚ),
        track.box = a → detection.box = b →
        @Candidate.cost? ℚ (exactAnalytic sqrt ln) settings track detection = some cost →
          cost = 1 - overlap a b ∧ 0 ≤ cost ∧ cost ≤ 1 ∧ (cost = 0 → a = b) := by
  have hnonneg := overlap_nonneg ha hb
  have hle := overlap_le_one ha hb
  refine ⟨overlap_comm a b, hnonneg, hle, overlap_pos_iff_volume_pos ha hb, ?_, ?_⟩
  · intro harea _
    rw [overlap_eq_one_iff ha hb, and_iff_left harea]
  · rintro sqrt ln settings track detection cost rfl rfl hcost
    obtain rfl := Candidate.cost_eq hcost
    refine ⟨rfl, sub_nonneg.mpr hle, sub_le_self 1 hnonneg, fun hzero => ?_⟩
    exact ((overlap_eq_one_iff ha hb).mp (sub_eq_zero.mp hzero).symm).1

namespace Box

/-- A square. -/
def leftSquare : Box ℚ := ⟨0, 0, 10, 10⟩

/-- The square moved to the right by half its width. -/
def rightSquare : Box ℚ := ⟨5, 0, 10, 10⟩

/-- A track with the square as its box. -/
def squareTrack : Track ℚ := ⟨1, leftSquare, [], 3, 1, .confirmed⟩

/-- The square and the square half beside it share a third of what they cover. -/
theorem overlap_measures_likeness_squares :
    leftSquare.IsProper ∧ rightSquare.IsProper ∧ overlap leftSquare rightSquare = 1 / 3 ∧
      0 < volume (leftSquare.inside ∩ rightSquare.inside) ∧
      @Candidate.cost? ℚ (exactAnalytic id id) ⟨1 / 2, 7 / 10, 96, 9⟩ squareTrack ⟨rightSquare, 1, []⟩ =
        some (2 / 3) ∧
      (2 / 3 : ℚ) = 1 - overlap leftSquare rightSquare := by
  have hleft : leftSquare.IsProper := ⟨by decide +kernel, by decide +kernel⟩
  have hright : rightSquare.IsProper := ⟨by decide +kernel, by decide +kernel⟩
  have hthird : overlap leftSquare rightSquare = 1 / 3 := by decide +kernel
  have hcost : @Candidate.cost? ℚ (exactAnalytic id id) ⟨1 / 2, 7 / 10, 96, 9⟩ squareTrack
      ⟨rightSquare, 1, []⟩ = some (2 / 3) := by decide +kernel
  obtain ⟨-, -, -, hinside, -, hcosts⟩ := overlap_measures_likeness leftSquare rightSquare hleft hright
  have hshared : 0 < overlap leftSquare rightSquare := hthird ▸ by norm_num
  exact ⟨hleft, hright, hthird, hinside.mp hshared, hcost, (hcosts _ _ _ _ _ _ rfl rfl hcost).1⟩

end Box

end PrivateFootage
