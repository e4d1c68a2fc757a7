import Mathlib
import PrivateFootage.Proofs.Outcome
import PrivateFootage.Proofs.Window.Groups
import PrivateFootage.Proofs.Window.Series

/-!
# Windows from what single chunks contribute

Shaping a window looks at one chunk at a time. Where every chunk of a sequence has a contribution, a
window is the reduction of the contributions of its chunks, and aggregation succeeds. The
contributions are given here for the masked scene and for regions, brought into range before or
after they are combined.
-/

namespace PrivateFootage

namespace Windowing

variable {α β : Type} [Scalar α] {windowing : Windowing α} {afterSplit : Bool}

/-- If every stretch of chunks is shaped into contributions, windows reduce the contributions. -/
theorem aggregate_eq_ok {items : List β} {result : β → ChunkResult α} {contribution : β → α}
    (hpos : 0 < windowing.chunksPerWindow) (hdvd : windowing.chunksPerWindow ∣ items.length)
    (hshape : ∀ group : List β, (∀ item ∈ group, item ∈ items) →
      windowing.shape (group.map result) afterSplit = .ok (group.map contribution)) :
    windowing.aggregate (items.map result) afterSplit =
      .ok ((groupsOf windowing.chunksPerWindow items).map fun group =>
        windowing.function.reduce (group.map contribution)) := by
  have hlength : ¬(items.map result).length % windowing.chunksPerWindow ≠ 0 := by
    rw [List.length_map, not_not]
    exact Nat.mod_eq_zero_of_dvd hdvd
  rw [aggregate, if_neg hpos.ne', if_neg hlength, groupsOf_map, List.mapM_map]
  apply Outcome.mapM_eq_ok
  intro group hgroup
  rw [Function.comp_apply, windowValue, hshape group (mem_groupsOf hgroup).2]
  rfl

/-- Chunks of the unmasked scene contribute their value as it is. -/
theorem shape_unmasked (hrendition : windowing.rendition = .unmasked) (value : β → ChunkValue α)
    (group : List β) :
    windowing.shape (group.map fun item => .single (value item)) afterSplit =
      .ok (group.map fun item => (value item).value) := by
  rw [shape, hrendition]
  dsimp only
  rw [List.mapM_map]
  apply Outcome.mapM_eq_ok
  intro item _
  rfl

/-- Chunks of the masked scene contribute their shaped value in range. -/
theorem shape_masked (hrendition : windowing.rendition = .masked) (value : β → ChunkValue α)
    (group : List β) :
    windowing.shape (group.map fun item => .single (value item)) afterSplit =
      .ok (group.map fun item => windowing.shapeMasked (value item)) := by
  rw [shape, hrendition]
  dsimp only
  rw [List.mapM_map]
  apply Outcome.mapM_eq_ok
  intro item _
  rfl

variable {params : PrivacyParams α} {count : ℕ}

/-- Bounds for each region pair up region by region. -/
theorem mapM_splitBounds {lower upper : List α} (hlower : params.lower = .perSplit lower)
    (hupper : params.upper = .perSplit upper) (hlowerCount : lower.length = count)
    (hupperCount : upper.length = count) :
    (List.range count).mapM (splitBounds params) = .ok (lower.zip upper) := by
  have hbounds : ∀ split ∈ List.range count,
      splitBounds params split = .ok (lower.getD split 0, upper.getD split 0) := by
    intro split hsplit
    rw [List.mem_range] at hsplit
    simp [splitBounds, Bound.forSplit?, hlower, hupper, hlowerCount, hupperCount, hsplit]
  rw [Outcome.mapM_eq_ok hbounds]
  congr 1
  apply List.ext_getElem
  · simp [hlowerCount, hupperCount]
  · intro split hsplit _
    simp at hsplit
    simp [hlowerCount, hupperCount, hsplit]

/-- Chunks in regions contribute one by one, whether bounds are applied last or first. -/
theorem shape_regions (hrendition : windowing.rendition = .maskedRegions)
    (hprivacy : windowing.privacy = some params) (hcount : params.splitCount = some count)
    {group : List (List (ChunkValue α))} (hgroup : ∀ values ∈ group, values.length = count) :
    windowing.shape (group.map .split) afterSplit =
      if afterSplit then .ok (group.map (combinedThenClipped params windowing.smartAdjust))
      else (List.range count).mapM (splitBounds params) >>= fun bounds =>
        .ok (group.map (clippedThenCombined params windowing.smartAdjust bounds)) := by
  have htaken : (group.map ChunkResult.split).mapM (splitValues count) = .ok group :=
    mapM_splitValues_iff.mpr ⟨rfl, hgroup⟩
  rw [shape, hrendition]
  dsimp only
  rw [shapeRegions_eq hprivacy hcount, htaken]
  rfl

/-- With bounds applied last, chunks in regions contribute their combination in range. -/
theorem shape_regions_after (hrendition : windowing.rendition = .maskedRegions)
    (hprivacy : windowing.privacy = some params) (hcount : params.splitCount = some count)
    {group : List (List (ChunkValue α))} (hgroup : ∀ values ∈ group, values.length = count) :
    windowing.shape (group.map .split) true =
      .ok (group.map (combinedThenClipped params windowing.smartAdjust)) := by
  rw [shape_regions hrendition hprivacy hcount hgroup, if_pos rfl]

/-- With bounds applied first, chunks in regions contribute the combination of regions in their own
bounds. -/
theorem shape_regions_before (hrendition : windowing.rendition = .maskedRegions)
    (hprivacy : windowing.privacy = some params) (hcount : params.splitCount = some count)
    {lower upper : List α} (hlower : params.lower = .perSplit lower)
    (hupper : params.upper = .perSplit upper) (hlowerCount : lower.length = count)
    (hupperCount : upper.length = count) {group : List (List (ChunkValue α))}
    (hgroup : ∀ values ∈ group, values.length = count) :
    windowing.shape (group.map .split) false =
      .ok (group.map (clippedThenCombined params windowing.smartAdjust (lower.zip upper))) := by
  rw [shape_regions hrendition hprivacy hcount hgroup, if_neg Bool.false_ne_true,
    mapM_splitBounds hlower hupper hlowerCount hupperCount]
  rfl

/-- With bounds applied first, regions that share one bound have none of their own, and no window
comes about. -/
theorem aggregate_without_splitBounds (hrendition : windowing.rendition = .maskedRegions)
    (hprivacy : windowing.privacy = some params) (hcount : params.splitCount = some count)
    (hpos : 0 < count)
    (hscene : (∃ value, params.lower = .scene value) ∨ ∃ value, params.upper = .scene value)
    {rows : List (List (ChunkValue α))} (hrows : ∀ values ∈ rows, values.length = count)
    (hwindow : 0 < windowing.chunksPerWindow) (hdvd : windowing.chunksPerWindow ∣ rows.length)
    (hrowsPos : 0 < rows.length) :
    windowing.aggregate (rows.map .split) false = .setting (.noBoundForSplit 0) := by
  have hbound : splitBounds params 0 = .setting (.noBoundForSplit 0) := by
    unfold splitBounds
    rcases hscene with ⟨value, h⟩ | ⟨value, h⟩
    · simp [h, Bound.forSplit?]
    · simp [h, Bound.forSplit?]
  have hbounds : (List.range count).mapM (splitBounds params) = .setting (.noBoundForSplit 0) := by
    obtain ⟨others, rfl⟩ := Nat.exists_eq_succ_of_ne_zero hpos.ne'
    rw [List.range_succ_eq_map, List.mapM_cons, hbound]
    rfl
  have hfirst : windowing.windowValue false ((rows.take windowing.chunksPerWindow).map .split) =
      .setting (.noBoundForSplit 0) := by
    rw [windowValue, shape_regions hrendition hprivacy hcount
      fun values hvalues => hrows values (List.mem_of_mem_take hvalues),
      if_neg Bool.false_ne_true, hbounds]
    rfl
  rw [aggregate, if_neg hwindow.ne', if_neg (by simpa using Nat.mod_eq_zero_of_dvd hdvd),
    groupsOf_map, groupsOf_of_le hwindow (Nat.le_of_dvd hrowsPos hdvd), List.map_cons,
    List.mapM_cons, hfirst]
  rfl

end Windowing

end PrivateFootage
