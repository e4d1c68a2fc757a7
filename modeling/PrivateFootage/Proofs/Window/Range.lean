import Mathlib
import PrivateFootage.Proofs.Privacy.Params
import PrivateFootage.Proofs.Window.Reference

/-!
# Windows in the range of the noise

The noise of a query is calibrated for the one range that covers the bounds of all regions. A chunk of
the masked scene, and a chunk in regions whose combination is clipped, contributes a value in that
range. Means, extremes and medians do not leave it, and a sum of so many chunks stays in the range
taken so many times.
-/

namespace PrivateFootage

namespace Exact

variable {values : List ℚ} {lower upper : ℚ}

/-- Clipping brings a value into a range exactly if the ends of the range are in order. -/
theorem clip_mem_Icc_iff (lower upper value : ℚ) :
    Scalar.clip lower upper value ∈ Set.Icc lower upper ↔ lower ≤ upper := by
  rw [clip_eq]
  exact ⟨fun h => h.1.trans h.2,
    fun hrange => ⟨le_min (le_max_right _ _) hrange, min_le_right _ _⟩⟩

/-- A sum of values in a range lies in the range taken as often as there are values. -/
theorem sum_mem_Icc (hvalues : ∀ value ∈ values, value ∈ Set.Icc lower upper) :
    Scalar.sum values ∈ Set.Icc (values.length * lower) (values.length * upper) := by
  rw [sum_eq, ← nsmul_eq_mul, ← nsmul_eq_mul]
  exact ⟨values.card_nsmul_le_sum lower fun value h => (hvalues value h).1,
    values.sum_le_card_nsmul upper fun value h => (hvalues value h).2⟩

/-- A mean of values in a range lies in it. -/
theorem mean_mem_Icc (hne : values ≠ []) (hvalues : ∀ value ∈ values, value ∈ Set.Icc lower upper) :
    Scalar.mean values ∈ Set.Icc lower upper := by
  have hpos : (0 : ℚ) < values.length := by exact_mod_cast List.length_pos_of_ne_nil hne
  have hsum := sum_mem_Icc hvalues
  rw [sum_eq, Set.mem_Icc] at hsum
  rw [mean_eq, Set.mem_Icc, le_div_iff₀ hpos, div_le_iff₀ hpos]
  constructor <;> linarith

/-- The greatest of values in a range lies in it. -/
theorem greatest_mem_Icc (hne : values ≠ [])
    (hvalues : ∀ value ∈ values, value ∈ Set.Icc lower upper) :
    Scalar.greatest values ∈ Set.Icc lower upper :=
  hvalues _ (isGreatest_greatest hne).1

/-- The median is one of the values, or lies half way between two of them. -/
theorem median_cases (hne : values ≠ []) :
    Scalar.median values ∈ values ∨
      ∃ first ∈ values, ∃ second ∈ values, Scalar.median values = (first + second) / 2 := by
  have hpos := List.length_pos_of_ne_nil hne
  have hplace (place : ℕ) (hplace : place < values.length) :
      (values.mergeSort Scalar.precedes).getD place Scalar.undefined ∈ values := by
    have hlt : place < (values.mergeSort Scalar.precedes).length := by
      rwa [List.length_mergeSort]
    rw [List.getD_eq_getElem _ _ hlt]
    exact List.mem_mergeSort.mp (List.getElem_mem hlt)
  have hhalf : (Scalar.half : ℚ) = 1 / 2 := by simp [Scalar.half, Scalar.two]
  simp only [Scalar.median, List.length_mergeSort, hhalf]
  split
  · exact .inl (hplace _ (by omega))
  · exact .inr ⟨_, hplace _ (by omega), _, hplace _ (by omega), mul_one_div _ _⟩

/-- A median of values in a range lies in it. -/
theorem median_mem_Icc (hne : values ≠ []) (hvalues : ∀ value ∈ values, value ∈ Set.Icc lower upper) :
    Scalar.median values ∈ Set.Icc lower upper := by
  rcases median_cases hne with hmem | ⟨first, hfirst, second, hsecond, heq⟩
  · exact hvalues _ hmem
  · have hleft := Set.mem_Icc.mp (hvalues first hfirst)
    have hright := Set.mem_Icc.mp (hvalues second hsecond)
    rw [heq, Set.mem_Icc]
    constructor <;> linarith

end Exact

/-- Reducing values in a range stays in it, except that a sum takes it once for every value. -/
theorem WindowFunction.reduce_mem_Icc (function : WindowFunction) {values : List ℚ}
    (hne : values ≠ []) {lower upper : ℚ}
    (hvalues : ∀ value ∈ values, value ∈ Set.Icc lower upper) :
    if function = .sum then
      function.reduce values ∈ Set.Icc (values.length * lower) (values.length * upper)
    else function.reduce values ∈ Set.Icc lower upper := by
  cases function with
  | sum => exact Exact.sum_mem_Icc hvalues
  | mean => exact Exact.mean_mem_Icc hne hvalues
  | max => exact Exact.greatest_mem_Icc hne hvalues
  | median => exact Exact.median_mem_Icc hne hvalues

namespace Windowing

variable {params : PrivacyParams ℚ} {windowing : Windowing ℚ} {afterSplit : Bool}

/-- What a chunk contributes lies in the range of the parameters, if clipping comes last. -/
theorem reference?_mem_Icc (hrange : params.lowest ≤ params.highest)
    (hprivacy : windowing.privacy = some params)
    (hlast : windowing.rendition = .masked ∨
      windowing.rendition = .maskedRegions ∧ afterSplit = true)
    {result : ChunkResult ℚ} {value : ℚ}
    (hvalue : windowing.reference? afterSplit result = some value) :
    value ∈ Set.Icc params.lowest params.highest := by
  rcases hlast with hrendition | ⟨hrendition, rfl⟩
  · cases result with
    | single chunk =>
      simp only [reference?, hrendition, ChunkResult.single?, inRange, hprivacy, Option.map_some,
        Option.elim_some, Option.some.injEq] at hvalue
      exact hvalue ▸ (Exact.clip_mem_Icc_iff _ _ _).mpr hrange
    | split values => simp [reference?, hrendition, ChunkResult.single?] at hvalue
  · cases result with
    | single chunk => simp [reference?, hrendition, hprivacy, ChunkResult.split?] at hvalue
    | split values =>
      simp only [reference?, hrendition, hprivacy, ChunkResult.split?, Option.bind_some,
        regionsReference?] at hvalue
      split at hvalue
      · cases hvalue
      · exact Option.some.inj hvalue ▸ (Exact.clip_mem_Icc_iff _ _ _).mpr hrange

/-- Under accepted parameters, every window of the masked scene, and every window over regions that are
clipped after they are combined, lies in the range of the parameters. A window of sums lies in that
range taken once for every chunk. -/
theorem windows_mem_range {rendition : Rendition} (hvalid : params.validate rendition = .ok ())
    (hprivacy : windowing.privacy = some params)
    (hlast : windowing.rendition = .masked ∨
      windowing.rendition = .maskedRegions ∧ afterSplit = true)
    {results : List (ChunkResult ℚ)} {windows : List ℚ}
    (hwindows : windowing.aggregate results afterSplit = .ok windows) :
    ∀ window ∈ windows,
      if windowing.function = .sum then
        window ∈ Set.Icc (windowing.chunksPerWindow * params.lowest)
          (windowing.chunksPerWindow * params.highest)
      else window ∈ Set.Icc params.lowest params.highest := by
  have hrange := (PrivacyParams.accepted_of_validate hvalid).1.lowest_le_highest
  obtain ⟨hpos, -, hadmitted, rfl⟩ := aggregate_eq_ok_iff.mp hwindows
  intro window hwindow
  obtain ⟨group, hgroup, rfl⟩ := List.mem_map.mp hwindow
  obtain ⟨hlength, hmem⟩ := mem_groupsOf hgroup
  have hcount : (group.filterMap (windowing.reference? afterSplit)).length =
      windowing.chunksPerWindow := by
    rw [List.length_filterMap_eq_countP, List.countP_eq_length.mpr, hlength]
    exact fun result hresult => hadmitted result (hmem result hresult)
  have hin : ∀ value ∈ group.filterMap (windowing.reference? afterSplit),
      value ∈ Set.Icc params.lowest params.highest := by
    intro value hvalue
    obtain ⟨result, -, hreference⟩ := List.mem_filterMap.mp hvalue
    exact reference?_mem_Icc hrange hprivacy hlast hreference
  have hreduced := windowing.function.reduce_mem_Icc
    (List.ne_nil_of_length_pos (hcount ▸ hpos)) hin
  rwa [hcount] at hreduced

/-- Two regions whose adjusted values fall below the range in one chunk and whose sum is above it in
the other. -/
theorem windows_mem_range_floored :
    let params : PrivacyParams ℚ := ⟨1, .perSplit [2, 3], .perSplit [5, 9], .sum, some 2, 1⟩
    let windowing : Windowing ℚ := ⟨2, .maskedRegions, some params, true, .sum⟩
    let results : List (ChunkResult ℚ) :=
      [.split [.corrected 1 4, .plain 0], .split [.plain 20, .plain 1]]
    (params.validate .maskedRegions = .ok () ∧ windowing.aggregate results true = .ok [11]) ∧
      (11 : ℚ) ∈ Set.Icc (2 * params.lowest) (2 * params.highest) := by
  intro params windowing results
  have hvalid : params.validate .maskedRegions = .ok () := by decide +kernel
  have hwindows : windowing.aggregate results true = .ok [11] := by decide +kernel
  have hmem := windows_mem_range hvalid rfl (.inr ⟨rfl, rfl⟩) hwindows 11 List.mem_cons_self
  exact ⟨⟨hvalid, hwindows⟩, hmem⟩

end Windowing

end PrivateFootage
