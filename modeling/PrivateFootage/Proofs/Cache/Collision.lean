import Mathlib
import PrivateFootage.Proofs.Aggregator.Descriptor
import PrivateFootage.Proofs.Cache.Key

/-!
# Which keys are equal

A mark of a key that stands behind a low line in a text starts a piece of the text other than the first.
The pieces of the descriptors of all aggregators that come with the library start otherwise, whatever
their settings, so these descriptors are free of marks. Keys with such descriptors are equal exactly if
they are made from the same video, rendition, chunk length and descriptor and, for regions, from the same
number of regions.
-/

namespace PrivateFootage

open Text

/-- A mark behind a low line starts a piece other than the first. -/
theorem exists_marked_piece {mark : List Char} (hmark : '_' ∉ mark) {text : String}
    (hmarked : '_' :: mark <:+: text.toList) : ∃ piece ∈ (piecesOf text).tail, mark <+: piece := by
  obtain ⟨before, after, htext⟩ := hmarked
  obtain ⟨piece, pieces, hafter⟩ := exists_split_eq_cons '_' after
  have hpieces : piecesOf text = split '_' before ++ (mark ++ piece) :: pieces := by
    rw [piecesOf, ← htext, List.append_assoc, List.cons_append, split_append,
      split_append_of_notMem hmark hafter]
  refine ⟨mark ++ piece, ?_, List.prefix_append _ _⟩
  rw [hpieces, List.tail_append_of_ne_nil (split_ne_nil _ _)]
  exact List.mem_append_right _ List.mem_cons_self

/-- A text is free of marks if no piece but the first starts with one. -/
theorem markFree_of_pieces {descriptor : String}
    (hpieces : ∀ piece ∈ (piecesOf descriptor).tail, ¬lengthMark <+: piece ∧ ¬regionsMark <+: piece) :
    MarkFree descriptor := by
  constructor
  · intro hmarked
    obtain ⟨piece, hpiece, hstarts⟩ := exists_marked_piece (by decide) hmarked
    exact (hpieces piece hpiece).1 hstarts
  · intro hmarked
    obtain ⟨piece, hpiece, hstarts⟩ := exists_marked_piece (by decide) hmarked
    exact (hpieces piece hpiece).2 hstarts

namespace Aggregator

/-- The aggregators that come with the library. -/
inductive IsBuiltIn : Aggregator Float → Prop
  | zero : IsBuiltIn (.zero Float)
  | count (filter : Filter Float) (settings : TrackerSettings Float) : IsBuiltIn (.count filter settings)
  | upward (filter : Filter Float) (settings : TrackerSettings Float) (minDistance : Float) :
    IsBuiltIn (.upward filter settings minDistance)

/-- No piece for a filter, a tracker or a distance starts with a mark of a key. -/
theorem not_starts_with_mark (filter : Filter Float) (settings : TrackerSettings Float) (minDistance : Float) :
    ∀ piece ∈ settingPieces filter settings ++ distancePieces minDistance,
      ¬lengthMark <+: piece ∧ ¬regionsMark <+: piece := by
  unfold distancePieces
  split_ifs <;> simp [settingPieces, lengthMark, regionsMark]

/-- The descriptors of the aggregators that come with the library are free of marks. -/
theorem IsBuiltIn.markFree {aggregator : Aggregator Float} (hbuiltIn : aggregator.IsBuiltIn) :
    MarkFree aggregator.descriptor := by
  apply markFree_of_pieces
  cases hbuiltIn with
  | zero => decide
  | count filter settings =>
    rw [piecesOf, split_count, List.tail_cons]
    intro piece hpiece
    exact not_starts_with_mark filter settings 0 piece (List.mem_append_left _ hpiece)
  | upward filter settings minDistance =>
    rw [piecesOf, split_upward, List.cons_append, List.tail_cons]
    exact not_starts_with_mark filter settings minDistance

end Aggregator

/-- The number of regions is part of a key only if there are regions. -/
theorem cacheKey_of_not_isSplit {rendition : Rendition} (hrendition : rendition ≠ .maskedRegions)
    (video : String) (framesPerChunk : ℕ) (descriptor : String) (splitCount splitCount' : Option ℕ) :
    cacheKey video rendition framesPerChunk descriptor splitCount =
      cacheKey video rendition framesPerChunk descriptor splitCount' := by
  cases rendition with
  | maskedRegions => exact absurd rfl hrendition
  | unmasked => rfl
  | masked => rfl
  | reserved => rfl

/-- Keys do not collide. With descriptors that are free of marks, two keys are equal exactly if they are
made from the same video, rendition, chunk length and descriptor and, for regions, the same number of
regions. The descriptors of all aggregators that come with the library are free of marks. -/
theorem cacheKey_eq_iff :
    (∀ (video video' : String) (rendition rendition' : Rendition) (framesPerChunk framesPerChunk' : ℕ)
        (descriptor descriptor' : String) (splitCount splitCount' : Option ℕ),
      MarkFree descriptor → MarkFree descriptor' →
      (cacheKey video rendition framesPerChunk descriptor splitCount =
          cacheKey video' rendition' framesPerChunk' descriptor' splitCount' ↔
        video = video' ∧ rendition = rendition' ∧ framesPerChunk = framesPerChunk' ∧
          descriptor = descriptor' ∧ (rendition = .maskedRegions → splitCount = splitCount'))) ∧
    ∀ aggregator : Aggregator Float, aggregator.IsBuiltIn → MarkFree aggregator.descriptor := by
  refine ⟨?_, fun aggregator hbuiltIn => hbuiltIn.markFree⟩
  intro video video' rendition rendition' framesPerChunk framesPerChunk' descriptor descriptor' splitCount
    splitCount' hfree hfree'
  constructor
  · intro hsame
    obtain ⟨hvideo, hrendition, hlength, hdescriptor, hcount⟩ := cacheKey_inj hfree hfree' hsame
    refine ⟨hvideo, hrendition, hlength, hdescriptor, fun hregions => hcount ?_⟩
    rw [hregions]
    rfl
  · rintro ⟨rfl, rfl, rfl, rfl, hcount⟩
    by_cases hregions : rendition = .maskedRegions
    · rw [hcount hregions]
    · exact cacheKey_of_not_isSplit hregions _ _ _ _ _

/-- A video whose name looks like part of a key keeps a key of its own, also if a descriptor starts like
a chunk length. -/
theorem cacheKey_eq_iff_lookalike :
    MarkFree "FPC-8" ∧ MarkFree (Aggregator.zero Float).descriptor ∧
    cacheKey "cam" .unmasked 8 "FPC-8" none ≠
      cacheKey "cam_ORIGINAL_FPC-8" .unmasked 8 (Aggregator.zero Float).descriptor none := by
  have hfree : MarkFree "FPC-8" := ⟨by decide, by decide⟩
  have hzero := cacheKey_eq_iff.2 _ .zero
  refine ⟨hfree, hzero, fun hsame => ?_⟩
  have hvideo := ((cacheKey_eq_iff.1 _ _ _ _ _ _ _ _ _ _ hfree hzero).mp hsame).1
  revert hvideo
  decide

end PrivateFootage
