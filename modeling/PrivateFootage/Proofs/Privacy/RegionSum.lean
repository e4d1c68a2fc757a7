import Mathlib
import PrivateFootage.Proofs.Privacy.Params
import PrivateFootage.Proofs.Privacy.Sensitivity
import PrivateFootage.Proofs.Privacy.WindowChange
import PrivateFootage.Proofs.Window.Contribution

/-!
# Sums over regions hide an individual

Every way to combine regions moves by no more than its values do together. Clipped after they are
combined, a chunk in regions therefore stays within the one range however many regions change.
Clipped before, each region that changes moves by at most its own bounds, which the one range covers,
so a chunk in which one region changes stays within it too.
-/

namespace PrivateFootage

/-- Maxima lie no further apart than the values they are taken of. -/
theorem abs_foldl_max_sub_foldl_max_le (x y : ℚ) {before after : List ℚ}
    (hlength : before.length = after.length) :
    |before.foldl max x - after.foldl max y| ≤ |x - y| + totalChange before after := by
  induction before generalizing x y after with
  | nil =>
    rw [List.eq_nil_of_length_eq_zero hlength.symm]
    simp [totalChange]
  | cons first before ih =>
    cases after with
    | nil => simp at hlength
    | cons second after =>
      have htail := ih (max x first) (max y second) (Nat.succ.inj hlength)
      have hhead : |max x first - max y second| ≤ |x - y| + |first - second| :=
        (abs_max_sub_max_le_max x first y second).trans
          (max_le_add_of_nonneg (abs_nonneg _) (abs_nonneg _))
      rw [List.foldl_cons, List.foldl_cons, totalChange_cons]
      linarith

/-- Greatest values lie no further apart than the values they are taken of. -/
theorem abs_greatest_sub_greatest_le {before after : List ℚ}
    (hlength : before.length = after.length) :
    |Scalar.greatest before - Scalar.greatest after| ≤ totalChange before after := by
  cases before with
  | nil =>
    rw [List.eq_nil_of_length_eq_zero hlength.symm, sub_self, abs_zero]
    exact totalChange_nonneg _ _
  | cons x before =>
    cases after with
    | nil => simp at hlength
    | cons y after =>
      rw [Exact.greatest_cons, Exact.greatest_cons, totalChange_cons]
      exact abs_foldl_max_sub_foldl_max_le x y (Nat.succ.inj hlength)

/-- A combination of regions moves by no more than its values do together. -/
theorem abs_combine_sub_combine_le (combination : Combination) {before after : List ℚ}
    (hlength : before.length = after.length) :
    |combination.combine before - combination.combine after| ≤ totalChange before after := by
  cases combination with
  | sum =>
    rw [Combination.combine, Combination.combine, Exact.sum_eq, Exact.sum_eq]
    exact abs_sum_sub_sum_le hlength
  | mean =>
    rw [Combination.combine, Combination.combine]
    apply (abs_mean_sub_mean_le hlength).trans
    rcases Nat.eq_zero_or_pos before.length with hzero | hpos
    · rw [hzero, Nat.cast_zero, div_zero]
      exact totalChange_nonneg _ _
    · exact div_le_self (totalChange_nonneg _ _) (by exact_mod_cast hpos)
  | max => exact abs_greatest_sub_greatest_le hlength

/-- The first region is brought into the first bounds. -/
theorem clipEach_cons (bound : ℚ × ℚ) (bounds : List (ℚ × ℚ)) (value : ℚ) (values : List ℚ) :
    Windowing.clipEach (bound :: bounds) (value :: values) =
      Scalar.clip bound.1 bound.2 value :: Windowing.clipEach bounds values := rfl

/-- Regions brought into their own bounds move by at most a width for each region that changed. -/
theorem totalChange_clipEach_le (smartAdjust : Bool) {bounds : List (ℚ × ℚ)} {width : ℚ}
    (hwidth : 0 ≤ width) (hbounds : ∀ bound ∈ bounds, bound.2 - bound.1 ≤ width)
    {before after : List (ChunkValue ℚ)} (hlength : before.length = after.length) :
    totalChange (Windowing.clipEach bounds (before.map (ChunkValue.shaped smartAdjust)))
        (Windowing.clipEach bounds (after.map (ChunkValue.shaped smartAdjust))) ≤
      changedCount before after * width := by
  induction bounds generalizing before after with
  | nil =>
    simp only [Windowing.clipEach, List.zipWith_nil_left, totalChange, List.sum_nil]
    positivity
  | cons bound bounds ih =>
    cases before with
    | nil =>
      rw [List.eq_nil_of_length_eq_zero hlength.symm]
      simp [Windowing.clipEach, totalChange]
    | cons x before =>
      cases after with
      | nil => simp at hlength
      | cons y after =>
        have htail := ih (fun other hother => hbounds other (List.mem_cons_of_mem _ hother))
          (Nat.succ.inj hlength)
        have hhead := abs_clip_sub_clip_le hwidth (hbounds bound (List.mem_cons_self ..))
          (x.shaped smartAdjust) (y.shaped smartAdjust)
        have hadd := abs_sub_add_le_changed
          (fun value : ChunkValue ℚ => Scalar.clip bound.1 bound.2 (value.shaped smartAdjust)) hhead
          htail
        rw [List.map_cons, List.map_cons, clipEach_cons, clipEach_cons, totalChange_cons,
          changedCount_cons]
        exact hadd

variable {params : PrivacyParams ℚ}

/-- Clipped after they are combined, chunks stay within the range of the parameters. -/
theorem abs_combinedThenClipped_sub_le (haccepted : params.Accepted) (smartAdjust : Bool)
    (x y : List (ChunkValue ℚ)) :
    |Windowing.combinedThenClipped params smartAdjust x -
        Windowing.combinedThenClipped params smartAdjust y| ≤ params.highest - params.lowest :=
  abs_clip_sub_clip_le (sub_nonneg.mpr haccepted.lowest_le_highest) le_rfl _ _

/-- Clipped before they are combined, chunks that differ in one region stay within the range of the
parameters. -/
theorem abs_clippedThenCombined_sub_le (haccepted : params.Accepted) (smartAdjust : Bool)
    {lower upper : List ℚ} (hlower : params.lower = .perSplit lower)
    (hupper : params.upper = .perSplit upper) {x y : List (ChunkValue ℚ)}
    (hlength : x.length = y.length) (hchanged : changedCount x y ≤ 1) :
    |Windowing.clippedThenCombined params smartAdjust (lower.zip upper) x -
        Windowing.clippedThenCombined params smartAdjust (lower.zip upper) y| ≤
      params.highest - params.lowest := by
  have hwidth : 0 ≤ params.highest - params.lowest := sub_nonneg.mpr haccepted.lowest_le_highest
  have hbounds : ∀ bound ∈ lower.zip upper, bound.2 - bound.1 ≤ params.highest - params.lowest := by
    intro bound hbound
    obtain ⟨hin, hin'⟩ := List.of_mem_zip hbound
    have hleast : params.lowest ≤ bound.1 := Bound.lowest_le (by rw [hlower]; exact hin)
    have hmost : bound.2 ≤ params.highest := Bound.le_highest (by rw [hupper]; exact hin')
    linarith
  have hclipped : (Windowing.clipEach (lower.zip upper)
        (x.map (ChunkValue.shaped smartAdjust))).length =
      (Windowing.clipEach (lower.zip upper) (y.map (ChunkValue.shaped smartAdjust))).length := by
    simp [Windowing.clipEach, hlength]
  calc
    _ ≤ totalChange _ _ := abs_combine_sub_combine_le params.combination hclipped
    _ ≤ changedCount x y * (params.highest - params.lowest) :=
      totalChange_clipEach_le smartAdjust hwidth hbounds hlength
    _ ≤ 1 * (params.highest - params.lowest) :=
      mul_le_mul_of_nonneg_right (by exact_mod_cast hchanged) hwidth
    _ = params.highest - params.lowest := one_mul _

/-- Windows of sums stay within the sensitivity if contributions stay within the range and no more
chunks change than one individual can touch. -/
theorem windowsWithin_of_contribution {windowing : Windowing ℚ} {afterSplit : Bool}
    (hfunction : windowing.function = .sum) (hpos : 0 < windowing.chunksPerWindow)
    (haccepted : params.Accepted) {before after : List (List (ChunkValue ℚ))}
    (hlength : before.length = after.length) (hdvd : windowing.chunksPerWindow ∣ before.length)
    {reach : ℚ} (hchanged : (changedCount before after : ℚ) ≤ reach)
    (contribution : List (ChunkValue ℚ) → ℚ)
    (hshape : ∀ group : List (List (ChunkValue ℚ)),
      (∀ values ∈ group, values ∈ before ∨ values ∈ after) →
        windowing.shape (group.map .split) afterSplit = .ok (group.map contribution))
    (hwidth : ∀ pair ∈ before.zip after,
      |contribution pair.1 - contribution pair.2| ≤ params.highest - params.lowest) :
    WindowsWithin windowing afterSplit (before.map .split) (after.map .split)
      ((params.upper.highest - params.lower.lowest) * reach) := by
  have hbefore := Windowing.aggregate_eq_ok hpos hdvd fun group hgroup =>
    hshape group fun values hvalues => .inl (hgroup values hvalues)
  have hafter := Windowing.aggregate_eq_ok hpos (hlength ▸ hdvd) fun group hgroup =>
    hshape group fun values hvalues => .inr (hgroup values hvalues)
  rw [hfunction] at hbefore hafter
  refine ⟨_, _, hbefore, hafter, by simp [hlength], ?_⟩
  exact (totalChange_sumWindows_le contribution hpos hlength hdvd hwidth).trans
    (haccepted.mul_range_le hchanged)

/-- If no more chunks change than one individual can touch, the sums of all windows over regions
together move by at most the sensitivity: with bounds applied last whatever changes in those chunks,
with bounds applied first if one region changes in each of them. -/
theorem regions_sums_change_le_sensitivity (params : PrivacyParams ℚ)
    (hvalid : params.validate .maskedRegions = .ok ()) (persistence : ℚ)
    (hpersistence : 0 ≤ persistence) (framesPerChunk chunksPerWindow : ℕ)
    (hframes : 1 ≤ framesPerChunk) (hchunks : 1 ≤ chunksPerWindow) (smartAdjust : Bool)
    (before after : List (List (ChunkValue ℚ))) (hlength : before.length = after.length)
    (hdvd : chunksPerWindow ∣ before.length)
    (hbefore : ∀ values ∈ before, params.splitCount = some values.length)
    (hafter : ∀ values ∈ after, params.splitCount = some values.length) (touched : ℚ)
    (htouched : persistenceChunks persistence framesPerChunk = .ok touched)
    (hchanged : (changedCount before after : ℚ) ≤ params.segments * touched) :
    let windowing : Windowing ℚ := ⟨chunksPerWindow, .maskedRegions, some params, smartAdjust, .sum⟩
    ∃ bound, sensitivity params.lower params.upper persistence params.segments framesPerChunk
        chunksPerWindow .sum = .ok bound ∧
      WindowsWithin windowing true (before.map .split) (after.map .split) bound ∧
      ∀ lower upper, params.lower = .perSplit lower → params.upper = .perSplit upper →
        (∀ pair ∈ before.zip after, changedCount pair.1 pair.2 ≤ 1) →
          WindowsWithin windowing false (before.map .split) (after.map .split) bound := by
  intro windowing
  obtain ⟨haccepted, hrendition⟩ := PrivacyParams.accepted_of_validate hvalid
  obtain ⟨count, hcount, -⟩ := PrivacyParams.splitCount_of_checkRendition hrendition
  rw [persistenceChunks_eq_ok hpersistence hframes, Except.ok.injEq] at htouched
  subst htouched
  have hfunction : windowing.function = .sum := rfl
  have hgroup (group : List (List (ChunkValue ℚ)))
      (hmem : ∀ values ∈ group, values ∈ before ∨ values ∈ after) :
      ∀ values ∈ group, values.length = count := by
    intro values hvalues
    rcases hmem values hvalues with h | h
    · exact Option.some.inj ((hbefore values h).symm.trans hcount)
    · exact Option.some.inj ((hafter values h).symm.trans hcount)
  refine ⟨_, sensitivity_sum_eq_ok params.lower params.upper chunksPerWindow
    haccepted.segments_pos hpersistence hframes, ?_, ?_⟩
  · apply windowsWithin_of_contribution hfunction hchunks haccepted hlength hdvd hchanged
      (Windowing.combinedThenClipped params smartAdjust)
    · intro group hmem
      exact Windowing.shape_regions_after rfl rfl hcount (hgroup group hmem)
    · intro pair _
      exact abs_combinedThenClipped_sub_le haccepted smartAdjust _ _
  · intro lower upper hlower hupper hone
    apply windowsWithin_of_contribution hfunction hchunks haccepted hlength hdvd hchanged
      (Windowing.clippedThenCombined params smartAdjust (lower.zip upper))
    · intro group hmem
      exact Windowing.shape_regions_before rfl rfl hcount hlower hupper
        (haccepted.lower_count lower count hlower hcount)
        (haccepted.upper_count upper count hupper hcount) (hgroup group hmem)
    · intro pair hpair
      obtain ⟨hx, hy⟩ := List.of_mem_zip hpair
      have hsame : pair.1.length = pair.2.length :=
        Option.some.inj ((hbefore pair.1 hx).symm.trans (hafter pair.2 hy))
      exact abs_clippedThenCombined_sub_le haccepted smartAdjust hlower hupper hsame
        (hone pair hpair)

/-- Two regions with bounds of different widths, one of which moves past its own bound in one chunk. -/
theorem regions_sums_change_le_sensitivity_two_regions :
    let params : PrivacyParams ℚ := ⟨1, .perSplit [0, 1], .perSplit [5, 2], .max, some 2, 1⟩
    let windowing : Windowing ℚ := ⟨2, .maskedRegions, some params, false, .sum⟩
    let before : List (List (ChunkValue ℚ)) := [[.plain 0, .plain 0], [.plain 1, .plain 2]]
    let after : List (List (ChunkValue ℚ)) := [[.plain 9, .plain 0], [.plain 1, .plain 2]]
    (params.validate .maskedRegions = .ok () ∧ 2 ∣ before.length ∧
        (∀ values ∈ before ++ after, params.splitCount = some values.length) ∧
        persistenceChunks (0 : ℚ) 1 = .ok 1 ∧ (changedCount before after : ℚ) ≤ params.segments * 1 ∧
        ∀ pair ∈ before.zip after, changedCount pair.1 pair.2 ≤ 1) ∧
      sensitivity params.lower params.upper 0 params.segments 1 2 .sum = .ok 5 ∧
      WindowsWithin windowing true (before.map .split) (after.map .split) 5 ∧
      WindowsWithin windowing false (before.map .split) (after.map .split) 5 := by
  intro params windowing before after
  have hvalid : params.validate .maskedRegions = .ok () := by decide +kernel
  have hcounts : ∀ values ∈ before ++ after, params.splitCount = some values.length := by
    decide +kernel
  have htouched : persistenceChunks (0 : ℚ) 1 = .ok 1 := by decide +kernel
  have hchanged : (changedCount before after : ℚ) ≤ params.segments * 1 := by decide +kernel
  have hone : ∀ pair ∈ before.zip after, changedCount pair.1 pair.2 ≤ 1 := by decide +kernel
  have hbound : sensitivity params.lower params.upper (0 : ℚ) params.segments 1 2 .sum = .ok 5 := by
    decide +kernel
  obtain ⟨bound, hbound', hlast, hfirst⟩ :=
    regions_sums_change_le_sensitivity params hvalid 0 le_rfl 1 2 le_rfl one_le_two false before after
      rfl (dvd_refl 2) (fun values hvalues => hcounts values (List.mem_append_left _ hvalues))
      (fun values hvalues => hcounts values (List.mem_append_right _ hvalues)) 1 htouched hchanged
  rw [hbound, Except.ok.injEq] at hbound'
  subst hbound'
  exact ⟨⟨hvalid, dvd_refl 2, hcounts, htouched, hchanged, hone⟩, hbound, hlast,
    hfirst [0, 1] [5, 2] rfl rfl hone⟩

end PrivateFootage
