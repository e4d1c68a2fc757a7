import Mathlib
import PrivateFootage.Proofs.Privacy.Params
import PrivateFootage.Proofs.Window.Contribution
import PrivateFootage.Proofs.Window.Range

/-!
# Regions in bounds of their own

Bounds that are applied before regions are combined act on each region by itself, and what is combined
then lies between the combinations of the bounds. This needs the two bounds of every region to be in
order. Accepting parameters does not establish that: only the lowest of all lower bounds and the
highest of all upper bounds are compared. A region whose bounds are crossed always enters the
combination with its upper bound, which is below its lower one.
-/

namespace PrivateFootage

namespace Exact

/-- Clipped to crossed bounds, every value is the upper bound. -/
theorem clip_of_crossed {lower upper : ℚ} (hcrossed : upper < lower) (value : ℚ) :
    Scalar.clip lower upper value = upper := by
  rw [clip_eq]
  exact min_eq_right (hcrossed.le.trans (le_max_right _ _))

/-- Whatever the bounds are, a clipped value is above the smaller and below the upper of them. -/
theorem clip_between (lower upper value : ℚ) :
    min lower upper ≤ Scalar.clip lower upper value ∧ Scalar.clip lower upper value ≤ upper := by
  rw [clip_eq]
  exact ⟨min_le_min_right _ (le_max_right _ _), min_le_right _ _⟩

/-- A maximum grows with the values it is taken of. -/
theorem foldl_max_le_foldl_max {smaller larger : List ℚ}
    (hvalues : List.Forall₂ (· ≤ ·) smaller larger) {x y : ℚ} (hxy : x ≤ y) :
    smaller.foldl max x ≤ larger.foldl max y := by
  induction hvalues generalizing x y with
  | nil => exact hxy
  | cons hhead _ ih => exact ih (max_le_max hxy hhead)

end Exact

/-- A combination of regions grows with the values of the regions. -/
theorem Combination.combine_le_combine (combination : Combination) {smaller larger : List ℚ}
    (hvalues : List.Forall₂ (· ≤ ·) smaller larger) :
    combination.combine smaller ≤ combination.combine larger := by
  cases combination with
  | sum => simpa only [combine, Exact.sum_eq] using hvalues.sum_le_sum
  | mean =>
    simp only [combine, Exact.mean_eq, hvalues.length_eq]
    exact div_le_div_of_nonneg_right hvalues.sum_le_sum (Nat.cast_nonneg _)
  | max =>
    cases hvalues with
    | nil => exact le_rfl
    | cons hhead htail =>
      simp only [combine, Exact.greatest_cons]
      exact Exact.foldl_max_le_foldl_max htail hhead

namespace Windowing

/-- Regions in bounds of their own lie above the smaller and below the upper bound of each. -/
theorem clipEach_between {lower upper values : List ℚ} (hupper : upper.length = lower.length)
    (hvalues : values.length = lower.length) :
    List.Forall₂ (· ≤ ·) (List.zipWith min lower upper) (clipEach (lower.zip upper) values) ∧
      List.Forall₂ (· ≤ ·) (clipEach (lower.zip upper) values) upper := by
  induction lower generalizing upper values with
  | nil => simp_all [clipEach]
  | cons low lower ih =>
    cases upper with
    | nil => simp at hupper
    | cons high upper =>
      cases values with
      | nil => simp at hvalues
      | cons value values =>
        obtain ⟨habove, hbelow⟩ := ih (Nat.succ.inj hupper) (Nat.succ.inj hvalues)
        obtain ⟨hlow, hhigh⟩ := Exact.clip_between low high value
        exact ⟨.cons hlow habove, .cons hhigh hbelow⟩

/-- Where the bounds of all regions are in order, the smaller ones are the lower ones. -/
theorem zipWith_min_of_ordered {lower upper : List ℚ}
    (hordered : List.Forall₂ (· ≤ ·) lower upper) : List.zipWith min lower upper = lower := by
  induction hordered with
  | nil => rfl
  | cons hhead _ ih => rw [List.zipWith_cons_cons, min_eq_left hhead, ih]

/-- What stands in the column of a region that is brought into its own bounds is a clipped value. -/
theorem exists_clip_of_mem_column {lower upper : List ℚ} {split : ℕ} {low high : ℚ}
    (hlow : lower[split]? = some low) (hhigh : upper[split]? = some high) {rows : List (List ℚ)}
    (hrows : ∀ row ∈ rows, row.length = lower.length) {value : ℚ}
    (hvalue : value ∈ column (rows.map (clipEach (lower.zip upper))) split) :
    ∃ shaped, value = Scalar.clip low high shaped := by
  simp only [column, List.map_map, List.mem_toArray, List.mem_map, Function.comp_apply] at hvalue
  obtain ⟨row, hrow, rfl⟩ := hvalue
  obtain ⟨hlowIn, rfl⟩ := List.getElem?_eq_some_iff.mp hlow
  obtain ⟨hhighIn, rfl⟩ := List.getElem?_eq_some_iff.mp hhigh
  have hrowIn : split < row.length := by rwa [hrows row hrow]
  exact ⟨row[split], by simp [clipEach, hlowIn, hhighIn, hrowIn]⟩

variable {params : PrivacyParams ℚ} {lower upper : List ℚ} {chunks : List (List (ChunkValue ℚ))}

/-- Accepted bounds for each region are as many as the regions. -/
theorem counts_of_validate (hvalid : params.validate .maskedRegions = .ok ())
    (hlower : params.lower = .perSplit lower) (hupper : params.upper = .perSplit upper) :
    params.splitCount = some lower.length ∧ upper.length = lower.length := by
  obtain ⟨haccepted, hrendition⟩ := PrivacyParams.accepted_of_validate hvalid
  obtain ⟨count, hcount, -⟩ := PrivacyParams.splitCount_of_checkRendition hrendition
  have hlowerCount := haccepted.lower_count lower count hlower hcount
  have hupperCount := haccepted.upper_count upper count hupper hcount
  exact ⟨hlowerCount ▸ hcount, hupperCount.trans hlowerCount.symm⟩

/-- The series that enter the combination are the columns of values in bounds of their own. -/
theorem enteringSeries_before (hlower : params.lower = .perSplit lower)
    (hupper : params.upper = .perSplit upper) (hcounts : upper.length = lower.length)
    (hchunks : ∀ values ∈ chunks, values.length = lower.length) (smartAdjust : Bool) :
    enteringSeries params smartAdjust lower.length (chunks.map .split) false =
      .ok (columns lower.length ((chunks.map (List.map (ChunkValue.shaped smartAdjust))).map
        (clipEach (lower.zip upper)))) := by
  have htaken : (chunks.map ChunkResult.split).mapM (splitValues lower.length) = .ok chunks :=
    mapM_splitValues_iff.mpr ⟨rfl, hchunks⟩
  have hbounds := mapM_splitBounds hlower hupper rfl hcounts
  rw [enteringSeries_eq, htaken]
  change ((List.range lower.length).mapM (splitBounds params) >>= fun bounds => Except.ok _) = _
  rw [hbounds]
  rfl

/-- Under accepted parameters with bounds for each region, bounds applied first bring a region into its
own bounds exactly if these are in order; a region with crossed bounds always enters with its upper
one. What a chunk contributes lies between the combination of the smaller bounds and the combination
of the upper bounds, so above that of the lower bounds if all bounds are in order. -/
theorem regions_in_own_bounds_iff (params : PrivacyParams ℚ)
    (hvalid : params.validate .maskedRegions = .ok ()) (lower upper : List ℚ)
    (hlower : params.lower = .perSplit lower) (hupper : params.upper = .perSplit upper)
    (smartAdjust : Bool) (chunks : List (List (ChunkValue ℚ)))
    (hchunks : ∀ values ∈ chunks, params.splitCount = some values.length) :
    (∃ series, enteringSeries params smartAdjust lower.length (chunks.map .split) false = .ok series ∧
      series.length = lower.length ∧
      ∀ (split : ℕ) (low high : ℚ) (entering : Array ℚ), lower[split]? = some low →
        upper[split]? = some high → series[split]? = some entering →
          entering.size = chunks.length ∧
          ∀ value ∈ entering, (value ∈ Set.Icc low high ↔ low ≤ high) ∧
            (high < low → value = high)) ∧
    ∀ chunksPerWindow function, ∃ combined,
      shape ⟨chunksPerWindow, .maskedRegions, some params, smartAdjust, function⟩
        (chunks.map .split) false = .ok combined ∧ combined.length = chunks.length ∧
      ∀ value ∈ combined,
        value ∈ Set.Icc (params.combination.combine (List.zipWith min lower upper))
          (params.combination.combine upper) ∧
        (List.Forall₂ (· ≤ ·) lower upper →
          value ∈ Set.Icc (params.combination.combine lower) (params.combination.combine upper)) := by
  obtain ⟨hcount, hcounts⟩ := counts_of_validate hvalid hlower hupper
  have hlength : ∀ values ∈ chunks, values.length = lower.length := fun values hvalues =>
    Option.some.inj ((hchunks values hvalues).symm.trans hcount)
  constructor
  · refine ⟨_, enteringSeries_before hlower hupper hcounts hlength smartAdjust, by simp [columns], ?_⟩
    intro split low high entering hlow hhigh hentering
    have hsplit : split < lower.length := (List.getElem?_eq_some_iff.mp hlow).1
    simp only [columns, List.getElem?_map, List.getElem?_range hsplit, Option.map_some,
      Option.some.injEq] at hentering
    subst hentering
    refine ⟨by simp [column], fun value hvalue => ?_⟩
    obtain ⟨shaped, rfl⟩ := exists_clip_of_mem_column hlow hhigh (by simpa using hlength) hvalue
    exact ⟨Exact.clip_mem_Icc_iff low high shaped, fun hcrossed => Exact.clip_of_crossed hcrossed _⟩
  · intro chunksPerWindow function
    refine ⟨_, shape_regions_before rfl rfl hcount hlower hupper rfl hcounts hlength, by simp, ?_⟩
    intro value hvalue
    obtain ⟨values, hvalues, rfl⟩ := List.mem_map.mp hvalue
    have hshaped : (values.map (ChunkValue.shaped smartAdjust)).length = lower.length := by
      rw [List.length_map, hlength values hvalues]
    obtain ⟨habove, hbelow⟩ := clipEach_between hcounts hshaped
    have hfrom := params.combination.combine_le_combine habove
    have hto := params.combination.combine_le_combine hbelow
    refine ⟨⟨hfrom, hto⟩, fun hordered => ⟨?_, hto⟩⟩
    rwa [zipWith_min_of_ordered hordered] at hfrom

/-- Two regions with bounds in order, one value above and one below the bounds of its region. -/
theorem regions_in_own_bounds_iff_ordered :
    let params : PrivacyParams ℚ := ⟨1, .perSplit [0, 1], .perSplit [5, 2], .mean, some 2, 1⟩
    let chunks : List (List (ChunkValue ℚ)) := [[.plain 9, .plain 0], [.corrected 3 1, .plain 4]]
    (params.validate .maskedRegions = .ok () ∧
        (∀ values ∈ chunks, params.splitCount = some values.length) ∧
        List.Forall₂ (· ≤ ·) [(0 : ℚ), 1] [5, 2]) ∧
      ∃ combined, shape ⟨2, .maskedRegions, some params, true, .sum⟩ (chunks.map .split) false =
          .ok combined ∧ combined.length = 2 ∧ ∀ value ∈ combined, value ∈ Set.Icc (1 / 2 : ℚ) (7 / 2) := by
  intro params chunks
  have hvalid : params.validate .maskedRegions = .ok () := by decide +kernel
  have hchunks : ∀ values ∈ chunks, params.splitCount = some values.length := by decide +kernel
  have hordered : List.Forall₂ (· ≤ ·) [(0 : ℚ), 1] [5, 2] := by norm_num
  have hlowest : params.combination.combine [(0 : ℚ), 1] = 1 / 2 := by decide +kernel
  have hhighest : params.combination.combine [(5 : ℚ), 2] = 7 / 2 := by decide +kernel
  obtain ⟨-, hcombined⟩ :=
    regions_in_own_bounds_iff params hvalid [0, 1] [5, 2] rfl rfl true chunks hchunks
  obtain ⟨combined, hshape, hlength, hwithin⟩ := hcombined 2 .sum
  refine ⟨⟨hvalid, hchunks, hordered⟩, combined, hshape, hlength, fun value hvalue => ?_⟩
  rw [← hlowest, ← hhighest]
  exact (hwithin value hvalue).2 hordered

/-- Two regions whose bounds are crossed in the second pass every check. A chunk of zeros enters with a
zero for the second region, below its lower bound, and contributes zero, where the combinations of the
lower and of the upper bounds are both six. -/
theorem crossed_region_leaves_own_bounds :
    let params : PrivacyParams ℚ := ⟨1, .perSplit [0, 6], .perSplit [6, 0], .sum, some 2, 1⟩
    let chunk : ChunkResult ℚ := .split [.plain 0, .plain 0]
    params.validate .maskedRegions = .ok () ∧
      enteringSeries params false 2 [chunk] false = .ok [#[0], #[0]] ∧ ¬(6 : ℚ) ≤ 0 ∧
      aggregate ⟨1, .maskedRegions, some params, false, .sum⟩ [chunk] false = .ok [0] ∧
      params.combination.combine [(0 : ℚ), 6] = 6 ∧ params.combination.combine [(6 : ℚ), 0] = 6 := by
  decide +kernel

end Windowing

end PrivateFootage
