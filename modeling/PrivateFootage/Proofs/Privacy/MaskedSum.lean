import Mathlib
import PrivateFootage.Proofs.Chunk.Cut
import PrivateFootage.Proofs.Chunk.Span
import PrivateFootage.Proofs.Privacy.Params
import PrivateFootage.Proofs.Privacy.Sensitivity
import PrivateFootage.Proofs.Privacy.WindowChange
import PrivateFootage.Proofs.Window.Contribution
import PrivateFootage.Query

/-!
# Sums over the masked scene hide an individual

The way from frames to windows, as one computation: cut into chunks, aggregate, leave out a partial
chunk at the end, shape, clip and add up. If two recordings agree outside the segments in which an
individual appears, all windows together move by no more than the sensitivity, which is the budget
times the scale of the noise.
-/

namespace PrivateFootage

variable {α : Type} [Scalar α]

/-- The windows of a recording that is read without an error. -/
def recordingWindows (aggregator : Aggregator α) (sideBySide : Bool) (windowing : Windowing α)
    (framesPerChunk : ℕ) (afterSplit : Bool) (frames : List (Frame α)) : Outcome (List α) := do
  let values ← Query.aggregateChunks aggregator sideBySide (cutChunks framesPerChunk (frames.map .ok))
  windowing.aggregate ((values.map .single).take (frames.length / framesPerChunk)) afterSplit

variable {aggregator : Aggregator α} {statistic : Chunk α → ChunkValue α}

omit [Scalar α] in
/-- An aggregator that always succeeds gives one value for each chunk, in either order of work. -/
theorem aggregateChunks_ok (hinvoke : ∀ chunk, aggregator.invoke chunk = .ok (statistic chunk))
    (sideBySide : Bool) (chunks : List (Chunk α)) :
    Query.aggregateChunks aggregator sideBySide (chunks.map .ok) = .ok (chunks.map statistic) := by
  cases sideBySide with
  | true =>
    rw [Query.aggregateChunks, if_pos rfl, Outcome.mapM_id_ok]
    exact Outcome.mapM_eq_ok fun chunk _ => hinvoke chunk
  | false =>
    rw [Query.aggregateChunks, if_neg Bool.false_ne_true, List.mapM_map]
    exact Outcome.mapM_eq_ok fun chunk _ => hinvoke chunk

/-- The windows of the masked scene reduce what the whole chunks of the recording contribute. -/
theorem recordingWindows_masked (hinvoke : ∀ chunk, aggregator.invoke chunk = .ok (statistic chunk))
    (sideBySide : Bool) {windowing : Windowing α} (hrendition : windowing.rendition = .masked)
    {framesPerChunk : ℕ} (hframes : 0 < framesPerChunk) (afterSplit : Bool)
    {frames : List (Frame α)} (hpos : 0 < windowing.chunksPerWindow)
    (hdvd : windowing.chunksPerWindow ∣ frames.length / framesPerChunk) :
    recordingWindows aggregator sideBySide windowing framesPerChunk afterSplit frames =
      .ok ((groupsOf windowing.chunksPerWindow (groupsOf framesPerChunk frames)).map fun group =>
        windowing.function.reduce
          (group.map fun chunk => windowing.shapeMasked (statistic chunk))) := by
  have hwhole : (((chunkPieces framesPerChunk frames).map statistic).map ChunkResult.single).take
      (frames.length / framesPerChunk) =
        (groupsOf framesPerChunk frames).map fun chunk => .single (statistic chunk) := by
    rw [List.map_map, ← List.map_take, take_chunkPieces hframes]
    rfl
  rw [recordingWindows, cutChunks_ok hframes, aggregateChunks_ok hinvoke]
  change windowing.aggregate (List.take _ _) afterSplit = _
  rw [hwhole]
  apply Windowing.aggregate_eq_ok hpos (by rwa [length_groupsOf])
  intro group _
  exact Windowing.shape_masked hrendition statistic group

/-- Contributions of the masked scene are no further apart than the range of the parameters. -/
theorem abs_shapeMasked_sub_le {windowing : Windowing ℚ} {params : PrivacyParams ℚ}
    (hprivacy : windowing.privacy = some params) (haccepted : params.Accepted)
    (x y : ChunkValue ℚ) :
    |windowing.shapeMasked x - windowing.shapeMasked y| ≤ params.highest - params.lowest := by
  rw [Windowing.shapeMasked, Windowing.shapeMasked, hprivacy]
  exact abs_clip_sub_clip_le (sub_nonneg.mpr haccepted.lowest_le_highest) le_rfl _ _

/-- If two recordings agree outside the segments in which an individual appears, the sums of all
windows of the masked scene together move by at most the sensitivity, which is the budget times the
scale of the noise. -/
theorem masked_sums_change_le_sensitivity (aggregator : Aggregator ℚ)
    (statistic : Chunk ℚ → ChunkValue ℚ)
    (hinvoke : ∀ chunk, aggregator.invoke chunk = .ok (statistic chunk)) (sideBySide : Bool)
    (params : PrivacyParams ℚ) (hvalid : params.validate .masked = .ok ())
    (persistence : ℚ) (hpersistence : 0 ≤ persistence) (framesPerChunk chunksPerWindow : ℕ)
    (hframes : 1 ≤ framesPerChunk) (hchunks : 1 ≤ chunksPerWindow) (smartAdjust afterSplit : Bool)
    (spans : List Span) (hsegments : spans.length = params.segments)
    (hspans : ∀ span ∈ spans, (span.length : ℚ) ≤ persistence) (before after : List (Frame ℚ))
    (hagree : AgreeOutside spans before after)
    (hdvd : chunksPerWindow ∣ before.length / framesPerChunk) :
    let windowing : Windowing ℚ := ⟨chunksPerWindow, .masked, some params, smartAdjust, .sum⟩
    ∃ windows windows' bound scale,
      recordingWindows aggregator sideBySide windowing framesPerChunk afterSplit before =
          .ok windows ∧
        recordingWindows aggregator sideBySide windowing framesPerChunk afterSplit after =
          .ok windows' ∧
        sensitivity params.lower params.upper persistence params.segments framesPerChunk
          chunksPerWindow .sum = .ok bound ∧
        noiseScale params persistence framesPerChunk chunksPerWindow .sum .chunks = .ok scale ∧
        windows.length = windows'.length ∧ totalChange windows windows' ≤ bound ∧
        bound = params.epsilon * scale := by
  intro windowing
  obtain ⟨haccepted, -⟩ := PrivacyParams.accepted_of_validate hvalid
  have hbound := sensitivity_sum_eq_ok params.lower params.upper chunksPerWindow
    haccepted.segments_pos hpersistence hframes
  have hdvd' : chunksPerWindow ∣ after.length / framesPerChunk := by rwa [← hagree.length_eq]
  refine ⟨_, _, _, _, recordingWindows_masked hinvoke sideBySide rfl hframes afterSplit hchunks hdvd,
    recordingWindows_masked hinvoke sideBySide rfl hframes afterSplit hchunks hdvd', hbound,
    noiseScale_chunks_eq_ok _ hbound, by simp [hagree.length_eq], ?_,
    (mul_div_cancel₀ _ haccepted.epsilon_pos.ne').symm⟩
  have hlength : (groupsOf framesPerChunk before).length = (groupsOf framesPerChunk after).length := by
    rw [length_groupsOf, length_groupsOf, hagree.length_eq]
  have hchanged := hagree.changedCount_groupsOf_le hframes hspans
  rw [hsegments] at hchanged
  have hmove := totalChange_sumWindows_le
    (fun chunk => windowing.shapeMasked (statistic chunk)) hchunks hlength
    (by rwa [length_groupsOf]) fun pair _ => abs_shapeMasked_sub_le rfl haccepted _ _
  exact hmove.trans (haccepted.mul_range_le (by exact_mod_cast hchanged))

/-- A stay of two frames across the border of two chunks changes both windows, which together move by
all of the sensitivity. The fifth frame makes a partial chunk that is left out. -/
theorem masked_sums_change_le_sensitivity_straddling :
    let rows : Aggregator ℚ := ⟨"ROWS", fun chunk => .ok (.plain chunk.flatten.length)⟩
    let params : PrivacyParams ℚ := ⟨1, .scene 0, .scene 1, .sum, none, 1⟩
    let windowing : Windowing ℚ := ⟨1, .masked, some params, false, .sum⟩
    let row : Row ℚ := ⟨0, 0, ⟨0, 0, 1, 1⟩, 1, []⟩
    let before : List (Frame ℚ) := [[], [], [], [], [row]]
    let after : List (Frame ℚ) := [[], [row], [row], [], [row]]
    (params.validate .masked = .ok () ∧ [Span.mk 1 2].length = params.segments ∧
        AgreeOutside [⟨1, 2⟩] before after ∧ 1 ∣ before.length / 2) ∧
      recordingWindows rows false windowing 2 true before = .ok [0, 0] ∧
      recordingWindows rows false windowing 2 true after = .ok [1, 1] ∧
      sensitivity params.lower params.upper 2 params.segments 2 1 .sum = .ok 2 ∧
      noiseScale params 2 2 1 .sum .chunks = .ok 2 ∧ totalChange [0, 0] [1, 1] ≤ 2 := by
  intro rows params windowing row before after
  have hvalid : params.validate .masked = .ok () := rfl
  have hagree : AgreeOutside [⟨1, 2⟩] before after := by
    refine ⟨rfl, fun position houtside => ?_⟩
    have hcovers := houtside ⟨1, 2⟩ (List.mem_singleton_self _)
    match position with
    | 0 => rfl
    | 1 => exact absurd ⟨le_rfl, by decide⟩ hcovers
    | 2 => exact absurd ⟨by decide, by decide⟩ hcovers
    | 3 => rfl
    | 4 => rfl
    | _ + 5 => rfl
  have hbefore : recordingWindows rows false windowing 2 true before = .ok [0, 0] := by
    decide +kernel
  have hafter : recordingWindows rows false windowing 2 true after = .ok [1, 1] := by
    decide +kernel
  have hbound : sensitivity params.lower params.upper (2 : ℚ) params.segments 2 1 .sum = .ok 2 := by
    decide +kernel
  obtain ⟨windows, windows', bound, scale, hwindows, hwindows', hbound', hscale, -, hmove, hbudget⟩ :=
    masked_sums_change_le_sensitivity rows (fun chunk => .plain chunk.flatten.length)
      (fun _ => rfl) false params hvalid 2 zero_le_two 2 1 one_le_two le_rfl false true [⟨1, 2⟩] rfl
      (by simp) before after hagree (one_dvd _)
  rw [hbefore, Except.ok.injEq] at hwindows
  rw [hafter, Except.ok.injEq] at hwindows'
  rw [hbound, Except.ok.injEq] at hbound'
  subst hwindows hwindows' hbound'
  have hone : scale = 2 := (one_mul scale).symm.trans hbudget.symm
  exact ⟨⟨hvalid, rfl, hagree, one_dvd _⟩, hbefore, hafter, hbound, hone ▸ hscale, hmove⟩

end PrivateFootage
