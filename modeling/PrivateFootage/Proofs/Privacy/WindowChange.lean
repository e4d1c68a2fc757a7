import Mathlib
import PrivateFootage.Proofs.ExactArithmetic
import PrivateFootage.Proofs.Privacy.Change
import PrivateFootage.Proofs.Window.Groups
import PrivateFootage.Window

/-!
# How far windows can move

If the contributions of two chunks are never further apart than a width, then the sums of all windows
together move by at most that width for every chunk that changed, and a single mean by at most that
width for every chunk of its window that changed, over the number of chunks in a window.
-/

namespace PrivateFootage

variable {β : Type} {size : ℕ} {before after : List β}

/-- Two values brought into the same bounds are no further apart than the bounds, even if these are
given in the wrong order. -/
theorem abs_clip_sub_clip_le {lower upper width : ℚ} (hwidth : 0 ≤ width)
    (hbounds : upper - lower ≤ width) (x y : ℚ) :
    |Scalar.clip lower upper x - Scalar.clip lower upper y| ≤ width := by
  rw [Exact.clip_eq, Exact.clip_eq]
  rcases le_total lower upper with hordered | hcrossed
  · have hx : lower ≤ min (max x lower) upper := le_min (le_max_right x lower) hordered
    have hy : lower ≤ min (max y lower) upper := le_min (le_max_right y lower) hordered
    have hx' : min (max x lower) upper ≤ upper := min_le_right _ _
    have hy' : min (max y lower) upper ≤ upper := min_le_right _ _
    rw [abs_le]
    constructor <;> linarith
  · rw [min_eq_right (hcrossed.trans (le_max_right x lower)),
      min_eq_right (hcrossed.trans (le_max_right y lower)), sub_self, abs_zero]
    exact hwidth

/-- Means lie no further apart than the values together, over their number. -/
theorem abs_mean_sub_mean_le {before after : List ℚ} (hlength : before.length = after.length) :
    |Scalar.mean before - Scalar.mean after| ≤ totalChange before after / before.length := by
  rw [Exact.mean_eq, Exact.mean_eq, ← hlength, ← sub_div, abs_div, Nat.abs_cast]
  exact div_le_div_of_nonneg_right (abs_sum_sub_sum_le hlength) (Nat.cast_nonneg _)

/-- Both sequences of results can be windowed, and their windows together move by at most a bound. -/
def WindowsWithin (windowing : Windowing ℚ) (afterSplit : Bool) (before after : List (ChunkResult ℚ))
    (bound : ℚ) : Prop :=
  ∃ windows windows', windowing.aggregate before afterSplit = .ok windows ∧
    windowing.aggregate after afterSplit = .ok windows' ∧ windows.length = windows'.length ∧
    totalChange windows windows' ≤ bound

/-- Both sequences of results can be windowed, and no window moves by more than a bound. -/
def EachWindowWithin (windowing : Windowing ℚ) (afterSplit : Bool)
    (before after : List (ChunkResult ℚ)) (bound : ℚ) : Prop :=
  ∃ windows windows', windowing.aggregate before afterSplit = .ok windows ∧
    windowing.aggregate after afterSplit = .ok windows' ∧ windows.length = windows'.length ∧
    ∀ pair ∈ windows.zip windows', |pair.1 - pair.2| ≤ bound

/-- A larger bound on each window holds too. -/
theorem EachWindowWithin.mono {windowing : Windowing ℚ} {afterSplit : Bool}
    {before after : List (ChunkResult ℚ)} {bound bound' : ℚ}
    (hwithin : EachWindowWithin windowing afterSplit before after bound)
    (hle : bound ≤ bound') : EachWindowWithin windowing afterSplit before after bound' := by
  obtain ⟨windows, windows', hbefore, hafter, hlength, hall⟩ := hwithin
  exact ⟨windows, windows', hbefore, hafter, hlength, fun pair hpair => (hall pair hpair).trans hle⟩

/-- The groups of sequences of equal length have equal lengths in pairs. -/
theorem forall₂_length_groupsOf (size : ℕ) (hlength : before.length = after.length) :
    List.Forall₂ (fun x y => x.length = y.length) (groupsOf size before) (groupsOf size after) := by
  rw [List.forall₂_iff_zip]
  refine ⟨by rw [length_groupsOf, length_groupsOf, hlength], ?_⟩
  intro x y hpair
  obtain ⟨hx, hy⟩ := List.of_mem_zip hpair
  rw [(mem_groupsOf hx).1, (mem_groupsOf hy).1]

/-- The sums of all windows together move by at most a width for every chunk that changed. -/
theorem totalChange_sumWindows_le [DecidableEq β] (contribution : β → ℚ) {width : ℚ}
    (hpos : 0 < size) (hlength : before.length = after.length) (hdvd : size ∣ before.length)
    (hwidth : ∀ pair ∈ before.zip after, |contribution pair.1 - contribution pair.2| ≤ width) :
    totalChange
        ((groupsOf size before).map fun group => WindowFunction.sum.reduce (group.map contribution))
        ((groupsOf size after).map fun group => WindowFunction.sum.reduce (group.map contribution)) ≤
      changedCount before after * width := by
  have hsums (items : List β) :
      ((groupsOf size items).map fun group => WindowFunction.sum.reduce (group.map contribution)) =
        (groupsOf size (items.map contribution)).map List.sum := by
    rw [groupsOf_map, List.map_map]
    apply List.map_congr_left
    intro group _
    exact Exact.sum_eq _
  have hlength' : (before.map contribution).length = (after.map contribution).length := by
    simpa using hlength
  have hflat (items : List β) (hdvd : size ∣ items.length) :
      (groupsOf size (items.map contribution)).flatten = items.map contribution :=
    flatten_groupsOf hpos (by rwa [List.length_map])
  rw [hsums, hsums]
  calc
    totalChange ((groupsOf size (before.map contribution)).map List.sum)
          ((groupsOf size (after.map contribution)).map List.sum) ≤
        totalChange (groupsOf size (before.map contribution)).flatten
          (groupsOf size (after.map contribution)).flatten :=
      totalChange_sums_le (forall₂_length_groupsOf size hlength')
    _ = totalChange (before.map contribution) (after.map contribution) := by
      rw [hflat before hdvd, hflat after (hlength ▸ hdvd)]
    _ ≤ changedCount before after * width := totalChange_map_le contribution hlength hwidth

/-- The groups at one position of two sequences are stretches from the same place. -/
theorem exists_of_mem_zip_groupsOf (hlength : before.length = after.length)
    {pair : List β × List β} (hpair : pair ∈ (groupsOf size before).zip (groupsOf size after)) :
    ∃ start, pair = ((before.drop start).take size, (after.drop start).take size) := by
  rw [groupsOf_eq, groupsOf_eq, ← hlength, List.zip_map'] at hpair
  obtain ⟨i, -, rfl⟩ := List.mem_map.mp hpair
  exact ⟨i * size, rfl⟩

/-- A mean moves by at most a width for every chunk of its window that changed, over the number of
chunks in a window. -/
theorem abs_meanWindow_sub_le [DecidableEq β] (contribution : β → ℚ) {width : ℚ} (hpos : 0 ≤ width)
    (hwidth : ∀ x y, |contribution x - contribution y| ≤ width)
    (hlength : before.length = after.length) {pair : List β × List β}
    (hpair : pair ∈ (groupsOf size before).zip (groupsOf size after)) :
    |WindowFunction.mean.reduce (pair.1.map contribution) -
        WindowFunction.mean.reduce (pair.2.map contribution)| ≤
      min (size : ℚ) (changedCount before after) * width / size := by
  obtain ⟨hx, hy⟩ := List.of_mem_zip hpair
  have hsize : pair.1.length = size := (mem_groupsOf hx).1
  have hsame : pair.1.length = pair.2.length := hsize.trans (mem_groupsOf hy).1.symm
  have hsame' : (pair.1.map contribution).length = (pair.2.map contribution).length := by
    simpa using hsame
  have hmean := abs_mean_sub_mean_le hsame'
  have htotal := totalChange_map_le contribution hsame fun items _ => hwidth items.1 items.2
  have hcount : (changedCount pair.1 pair.2 : ℚ) ≤ min (size : ℚ) (changedCount before after) := by
    have hlocal := changedCount_le_length hsame
    obtain ⟨start, rfl⟩ := exists_of_mem_zip_groupsOf hlength hpair
    have hglobal := changedCount_stretch_le before after start size
    rw [hsize] at hlocal
    exact le_min (by exact_mod_cast hlocal) (by exact_mod_cast hglobal)
  rw [List.length_map, hsize] at hmean
  apply hmean.trans
  apply div_le_div_of_nonneg_right _ (Nat.cast_nonneg size)
  exact htotal.trans (mul_le_mul_of_nonneg_right hcount hpos)

end PrivateFootage
