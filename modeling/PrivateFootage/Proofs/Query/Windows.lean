import Mathlib
import PrivateFootage.Proofs.Cache.Files
import PrivateFootage.Proofs.ExactArithmetic
import PrivateFootage.Proofs.Query.Compute
import PrivateFootage.Proofs.Window.Contribution

/-!
# An accepted query windows what it computes

A computation that succeeds gives one result for each chunk of the footage, a partial chunk at the end
included. The results for whole chunks are the ones that the query counted when it was accepted, they
hold as many values as the query has regions, and their number is a multiple of the window length. So
none of the checks made while windows are formed can fail, with one exception that acceptance leaves
open: bounds that are applied region by region must be given region by region.
-/

namespace PrivateFootage

namespace ChunkResult

variable {α : Type}

/-- The values that a result holds. -/
def values : ChunkResult α → List (ChunkValue α)
  | .single value => [value]
  | .split values => values

/-- Whether a result is one for regions. -/
def isSplit : ChunkResult α → Bool
  | .single _ => false
  | .split _ => true

end ChunkResult

namespace Query

variable {α : Type} [Scalar α]

/-- A result comes from the chunks at its position, one for each region that the query reads. -/
structure ComesFrom (query : Query α) (store : Store) (position : ℕ) (chunks : List (Chunk α))
    (result : ChunkResult α) : Prop where
  read : ∃ footage, query.footage = .ok footage ∧
    List.Forall₂ (fun region chunk => ∃ items, footage.chunks store region = .ok items ∧
      items[position]? = some (.ok chunk)) query.regions chunks
  aggregated : chunks.mapM query.aggregator.invoke = .ok result.values
  isSplit_eq : result.isSplit = query.spec.rendition.isSplit

/-- The result of the chunks at one position. -/
def rowResult (query : Query α) (row : List (Chunk α)) : ChunkResult α :=
  if query.spec.rendition.isSplit then .split (row.map (valueOf query.aggregator))
  else .single (valueOf query.aggregator (row.headD []))

variable {query : Query α} {footage : Footage} {store : Store} {recordings : List (List (Chunk α))}

omit [Scalar α] in
/-- An accepted query reads at least one region, or the whole scene. -/
theorem Accepted.regions_ne_nil (haccepted : query.Accepted) : query.regions ≠ [] := by
  cases hrendition : query.spec.rendition with
  | unmasked => simp [regions, hrendition]
  | masked => simp [regions, hrendition]
  | maskedRegions =>
    obtain ⟨params, count, hparams, hcount, hpos⟩ := haccepted.regions_count hrendition
    simp [regions, hrendition, hparams, hcount, hpos.ne']
  | reserved => exact absurd hrendition haccepted.rendition_ne

omit [Scalar α] in
/-- Without regions, the whole scene is all that a query reads. -/
theorem regions_of_not_isSplit (hsplit : ¬query.spec.rendition.isSplit = true) :
    query.regions = [none] := by
  cases hrendition : query.spec.rendition with
  | maskedRegions => exact absurd (by rw [hrendition]; rfl) hsplit
  | unmasked | masked | reserved => simp [regions, hrendition]

/-- The results of a computation are those of the chunks at each position. -/
theorem resultsOf_eq (hlength : recordings.length = query.regions.length) :
    query.resultsOf recordings = (joinRows recordings).map query.rowResult := by
  rw [resultsOf, assemble]
  by_cases hsplit : query.spec.rendition.isSplit = true
  · rw [if_pos hsplit, joinRows_map, List.map_map]
    apply List.map_congr_left
    intro row _
    rw [rowResult, if_pos hsplit]
    rfl
  · rw [regions_of_not_isSplit hsplit, List.length_singleton] at hlength
    obtain ⟨chunks, rfl⟩ := List.length_eq_one_iff.mp hlength
    have hrows : joinRows [chunks] = chunks.map fun chunk => [chunk] := rfl
    rw [if_neg hsplit, List.map_singleton, List.flatten_singleton, hrows, List.map_map, List.map_map]
    apply List.map_congr_left
    intro chunk _
    rw [Function.comp_apply, Function.comp_apply, rowResult, if_neg hsplit]
    rfl

/-- Every region that is read to its end has as many chunks as the footage, whole ones where frames
fill them. -/
theorem ReadsRegions.whole_chunks (haccepted : query.Accepted) (hopens : query.Opens footage)
    (hreads : ReadsRegions query.aggregator footage store query.regions recordings) :
    ∀ chunks ∈ recordings, chunks.length = footage.chunkCount ∧
      ∀ position < query.chunkCount, ∃ chunk,
        chunks[position]? = some chunk ∧ chunk.length = query.spec.framesPerChunk := by
  have hsize : 0 < footage.framesPerChunk := by
    rw [hopens.framesPerChunk_eq]
    exact haccepted.framesPerChunk_pos
  intro chunks hchunks
  obtain ⟨region, hregion, hread⟩ := exists_left_of_forall₂ hreads.read hchunks
  have hwhole := Footage.whole_chunks (hopens.hasRegion region hregion) hsize
    hopens.frameCount_pos hread
  rwa [hopens.framesPerChunk_eq, ← hopens.chunkCount_eq] at hwhole

/-- The row of chunks at a position is what a result comes from. -/
theorem comesFrom_rowResult (hfootage : query.footage = .ok footage)
    (hreads : ReadsRegions query.aggregator footage store query.regions recordings) {position : ℕ}
    {row : List (Chunk α)}
    (hrow : List.Forall₂ (fun items item => items[position]? = some item) recordings row) :
    query.ComesFrom store position row (query.rowResult row) := by
  have hread := forall₂_exists_iff.mpr ⟨recordings, hreads.read, hrow⟩
  have hlength : query.regions.length = row.length := hread.length_eq
  have hvalues : (query.rowResult row).values = row.map (valueOf query.aggregator) := by
    rw [rowResult]
    by_cases hsplit : query.spec.rendition.isSplit = true
    · rw [if_pos hsplit]
      rfl
    · rw [regions_of_not_isSplit hsplit] at hlength
      obtain ⟨chunk, rfl⟩ := List.length_eq_one_iff.mp hlength.symm
      rw [if_neg hsplit]
      rfl
  constructor
  · refine ⟨footage, hfootage, hread.imp ?_⟩
    rintro region chunk ⟨chunks, hchunks, hat⟩
    exact ⟨_, hchunks, by rw [List.getElem?_map, hat]; rfl⟩
  · rw [hvalues]
    apply Outcome.mapM_eq_ok
    intro chunk hchunk
    obtain ⟨chunks, hchunks, hat⟩ := exists_left_of_forall₂ hrow hchunk
    exact invoke_eq_valueOf (hreads.aggregated chunks hchunks chunk (List.mem_of_getElem? hat))
  · rw [rowResult]
    by_cases hsplit : query.spec.rendition.isSplit = true
    · rw [if_pos hsplit, hsplit]
      rfl
    · rw [if_neg hsplit, Bool.eq_false_iff.mpr hsplit]
      rfl

/-- There is a row for every chunk of the footage, and those at the positions of whole chunks hold
whole chunks. -/
theorem ReadsRegions.rows_at (haccepted : query.Accepted) (hopens : query.Opens footage)
    (hreads : ReadsRegions query.aggregator footage store query.regions recordings) :
    (joinRows recordings).length = footage.chunkCount ∧
      ∀ position < query.chunkCount, ∃ row, (joinRows recordings)[position]? = some row ∧
        List.Forall₂ (fun items item => items[position]? = some item) recordings row ∧
        ∀ chunk ∈ row, chunk.length = query.spec.framesPerChunk := by
  have hwhole := hreads.whole_chunks haccepted hopens
  have hrecordings : recordings ≠ [] := by
    have hlength := hreads.read.length_eq
    rintro rfl
    exact haccepted.regions_ne_nil (List.eq_nil_of_length_eq_zero hlength)
  obtain ⟨hrows, hposition⟩ := joinRows_at hrecordings fun chunks hchunks => (hwhole chunks hchunks).1
  refine ⟨hrows, fun position hlt => ?_⟩
  have hfits : position < footage.chunkCount := by
    obtain ⟨chunks, hchunks⟩ := List.exists_mem_of_ne_nil recordings hrecordings
    obtain ⟨hlength, hfull⟩ := hwhole chunks hchunks
    obtain ⟨chunk, hat, -⟩ := hfull position hlt
    exact hlength ▸ (List.getElem?_eq_some_iff.mp hat).1
  obtain ⟨row, hat, hpairs⟩ := hposition position hfits
  refine ⟨row, hat, hpairs, fun chunk hchunk => ?_⟩
  obtain ⟨chunks, hchunks, hfound⟩ := exists_left_of_forall₂ hpairs hchunk
  obtain ⟨whole, hwholeAt, hlength⟩ := (hwhole chunks hchunks).2 position hlt
  rw [hwholeAt, Option.some.injEq] at hfound
  rw [← hfound, hlength]

/-! ### Windows -/

/-- The regions of a specification share a bound, instead of each having its own. -/
def SharesBound (spec : QuerySpec α) : Prop :=
  spec.rendition = .maskedRegions ∧ ∃ params, spec.privacy = some params ∧
    ((∃ value, params.lower = .scene value) ∨ ∃ value, params.upper = .scene value)

omit [Scalar α] in
/-- Whole chunks are among the chunks of the footage. -/
theorem Opens.chunkCount_le (haccepted : query.Accepted) (hopens : query.Opens footage) :
    query.chunkCount ≤ footage.chunkCount := by
  have hpos := haccepted.framesPerChunk_pos
  rw [hopens.chunkCount_eq, Footage.chunkCount, hopens.framesPerChunk_eq]
  exact Nat.div_le_div_right (by omega)

/-- What windows are formed of: one row for each whole chunk, of as many chunks as there are regions. -/
theorem exists_rows (haccepted : query.Accepted) (hopens : query.Opens footage)
    (hreads : ReadsRegions query.aggregator footage store query.regions recordings) :
    ∃ rows : List (List (Chunk α)), rows.length = query.chunkCount ∧
      (∀ row ∈ rows, row.length = query.regions.length) ∧
      (query.resultsOf recordings).take query.chunkCount = rows.map query.rowResult ∧
      ∀ afterSplit, query.windowsOf (query.resultsOf recordings) afterSplit =
        query.spec.windowing.aggregate (rows.map query.rowResult) afterSplit := by
  obtain ⟨hlength, hposition⟩ := hreads.rows_at haccepted hopens
  have hresults : query.resultsOf recordings = _ := resultsOf_eq hreads.read.length_eq.symm
  have htake : (query.resultsOf recordings).take query.chunkCount =
      ((joinRows recordings).take query.chunkCount).map query.rowResult := by
    rw [hresults, List.map_take]
  refine ⟨(joinRows recordings).take query.chunkCount, ?_, ?_, htake, fun afterSplit => ?_⟩
  · rw [List.length_take, hlength, min_eq_left (hopens.chunkCount_le haccepted)]
  · intro row hrow
    obtain ⟨position, hlt, rfl⟩ := List.getElem_of_mem hrow
    rw [List.length_take] at hlt
    obtain ⟨row, hat, hpairs, -⟩ := hposition position (by omega)
    rw [List.getElem_take, (List.getElem?_eq_some_iff.mp hat).2, ← hpairs.length_eq,
      hreads.read.length_eq]
  · have henough : ¬(query.resultsOf recordings).length < query.chunkCount := by
      rw [hresults, List.length_map, hlength, not_lt]
      exact hopens.chunkCount_le haccepted
    rw [windowsOf, if_neg henough, htake]

/-- Without regions, the result at a position is the value of the one chunk there. -/
theorem rowResult_of_not_isSplit (hsplit : ¬query.spec.rendition.isSplit = true) :
    query.rowResult = fun row => .single (valueOf query.aggregator (row.headD [])) := by
  funext row
  rw [rowResult, if_neg hsplit]

/-- With regions, the results are rows of as many values as there are chunks. -/
theorem map_rowResult (hrendition : query.spec.rendition = .maskedRegions)
    (group : List (List (Chunk α))) :
    group.map query.rowResult =
      (group.map fun row => row.map (valueOf query.aggregator)).map .split := by
  rw [List.map_map]
  apply List.map_congr_left
  intro row _
  rw [rowResult, if_pos (by rw [hrendition]; rfl)]
  rfl

/-- With regions, the values in a row are as many as the regions. -/
theorem length_of_mem_rowValues (hrendition : query.spec.rendition = .maskedRegions)
    {params : PrivacyParams α} (hparams : query.spec.privacy = some params) {count : ℕ}
    (hcount : params.splitCount = some count) {group : List (List (Chunk α))}
    (hgroup : ∀ row ∈ group, row.length = query.regions.length) :
    ∀ values ∈ group.map fun row => row.map (valueOf query.aggregator), values.length = count := by
  intro values hvalues
  obtain ⟨row, hrow, rfl⟩ := List.mem_map.mp hvalues
  rw [List.length_map, hgroup row hrow, regions_eq hrendition hparams hcount, List.length_map,
    List.length_range]

/-- A window is formed of every stretch of whole chunks, unless bounds are applied region by region
and the regions share one. -/
theorem shape_rows (haccepted : query.Accepted) {afterSplit : Bool}
    (hbounds : ¬(SharesBound query.spec ∧ afterSplit = false)) :
    ∃ contribution : List (Chunk α) → α, ∀ group : List (List (Chunk α)),
      (∀ row ∈ group, row.length = query.regions.length) →
        query.spec.windowing.shape (group.map query.rowResult) afterSplit =
          .ok (group.map contribution) := by
  cases hrendition : query.spec.rendition with
  | unmasked =>
    refine ⟨fun row => (valueOf query.aggregator (row.headD [])).value, fun group _ => ?_⟩
    rw [rowResult_of_not_isSplit (by rw [hrendition]; decide)]
    exact Windowing.shape_unmasked hrendition _ group
  | masked =>
    refine ⟨fun row => query.spec.windowing.shapeMasked (valueOf query.aggregator (row.headD [])),
      fun group _ => ?_⟩
    rw [rowResult_of_not_isSplit (by rw [hrendition]; decide)]
    exact Windowing.shape_masked hrendition _ group
  | maskedRegions =>
    obtain ⟨params, count, hparams, hcount, -⟩ := haccepted.regions_count hrendition
    cases afterSplit with
    | true =>
      refine ⟨fun row => Windowing.combinedThenClipped params query.spec.smartAdjust
        (row.map (valueOf query.aggregator)), fun group hgroup => ?_⟩
      rw [map_rowResult hrendition, Windowing.shape_regions_after hrendition hparams hcount
        (length_of_mem_rowValues hrendition hparams hcount hgroup), List.map_map]
      rfl
    | false =>
      obtain ⟨lower, hlower⟩ : ∃ values, params.lower = .perSplit values := by
        cases hbound : params.lower with
        | scene value => exact absurd ⟨⟨hrendition, params, hparams, .inl ⟨value, hbound⟩⟩, rfl⟩ hbounds
        | perSplit values => exact ⟨values, rfl⟩
      obtain ⟨upper, hupper⟩ : ∃ values, params.upper = .perSplit values := by
        cases hbound : params.upper with
        | scene value => exact absurd ⟨⟨hrendition, params, hparams, .inr ⟨value, hbound⟩⟩, rfl⟩ hbounds
        | perSplit values => exact ⟨values, rfl⟩
      have hlowerCount := haccepted.bound_count params lower count hparams (.inl hlower) hcount
      have hupperCount := haccepted.bound_count params upper count hparams (.inr hupper) hcount
      refine ⟨fun row => Windowing.clippedThenCombined params query.spec.smartAdjust
        (lower.zip upper) (row.map (valueOf query.aggregator)), fun group hgroup => ?_⟩
      rw [map_rowResult hrendition, Windowing.shape_regions_before hrendition hparams hcount hlower
        hupper hlowerCount hupperCount (length_of_mem_rowValues hrendition hparams hcount hgroup),
        List.map_map]
      rfl
  | reserved => exact absurd hrendition haccepted.rendition_ne

/-- What a computation comes to is windowed, unless bounds are applied region by region and the
regions share one. -/
theorem windowsOf_resultsOf (haccepted : query.Accepted) (hopens : query.Opens footage)
    (hreads : ReadsRegions query.aggregator footage store query.regions recordings)
    {afterSplit : Bool} (hbounds : ¬(SharesBound query.spec ∧ afterSplit = false)) :
    ∃ windows, query.windowsOf (query.resultsOf recordings) afterSplit = .ok windows ∧
      windows.length = query.windowCount := by
  obtain ⟨rows, hlength, hrow, -, hwindows⟩ := exists_rows haccepted hopens hreads
  obtain ⟨contribution, hshape⟩ := shape_rows haccepted hbounds
  rw [hwindows]
  refine ⟨_, Windowing.aggregate_eq_ok haccepted.chunksPerWindow_pos ?_ fun group hgroup =>
    hshape group fun row hmem => hrow row (hgroup row hmem), ?_⟩
  · rw [hlength]
    exact haccepted.windows_even
  · rw [List.length_map, length_groupsOf, hlength]
    rfl

/-- Bounds that regions share cannot be applied region by region. -/
theorem windowsOf_resultsOf_of_sharesBound (haccepted : query.Accepted)
    (hopens : query.Opens footage)
    (hreads : ReadsRegions query.aggregator footage store query.regions recordings)
    (hshares : SharesBound query.spec) :
    query.windowsOf (query.resultsOf recordings) false = .setting (.noBoundForSplit 0) := by
  obtain ⟨rows, hlength, hrow, -, hwindows⟩ := exists_rows haccepted hopens hreads
  obtain ⟨hrendition, params, hparams, hscene⟩ := hshares
  obtain ⟨other, count, hother, hcount, hpos⟩ := haccepted.regions_count hrendition
  rw [hparams, Option.some.injEq] at hother
  subst hother
  have hrows : (rows.map fun row => row.map (valueOf query.aggregator)).length = query.chunkCount := by
    rw [List.length_map, hlength]
  rw [hwindows, map_rowResult hrendition]
  exact Windowing.aggregate_without_splitBounds hrendition hparams hcount hpos hscene
    (length_of_mem_rowValues hrendition hparams hcount hrow) haccepted.chunksPerWindow_pos
    (hrows ▸ haccepted.windows_even) (hrows ▸ haccepted.chunkCount_pos)

/-- Bounds of their own are applied to the regions one by one, and windows reduce what the regions of
their chunks combine to. -/
theorem windowsOf_resultsOf_of_perSplit (haccepted : query.Accepted) (hopens : query.Opens footage)
    (hreads : ReadsRegions query.aggregator footage store query.regions recordings)
    (hrendition : query.spec.rendition = .maskedRegions) {params : PrivacyParams α}
    (hparams : query.spec.privacy = some params) {count : ℕ} (hcount : params.splitCount = some count)
    {lower upper : List α} (hlower : params.lower = .perSplit lower)
    (hupper : params.upper = .perSplit upper) :
    ∃ rows : List (List (ChunkValue α)),
      (query.resultsOf recordings).take query.chunkCount = rows.map .split ∧
      rows.length = query.chunkCount ∧ (∀ values ∈ rows, values.length = count) ∧
      query.windowsOf (query.resultsOf recordings) false =
        .ok ((groupsOf query.spec.chunksPerWindow rows).map fun group =>
          query.spec.function.reduce (group.map
            (Windowing.clippedThenCombined params query.spec.smartAdjust (lower.zip upper)))) := by
  obtain ⟨rows, hlength, hrow, htake, hwindows⟩ := exists_rows haccepted hopens hreads
  have hvalues := length_of_mem_rowValues hrendition hparams hcount hrow
  have hlowerCount := haccepted.bound_count params lower count hparams (.inl hlower) hcount
  have hupperCount := haccepted.bound_count params upper count hparams (.inr hupper) hcount
  rw [map_rowResult hrendition] at htake
  refine ⟨_, htake, by rw [List.length_map, hlength], hvalues, ?_⟩
  rw [hwindows, map_rowResult hrendition]
  refine Windowing.aggregate_eq_ok haccepted.chunksPerWindow_pos ?_ fun group hgroup =>
    Windowing.shape_regions_before hrendition hparams hcount hlower hupper hlowerCount hupperCount
      fun values hmem => hvalues values (hgroup values hmem)
  rw [List.length_map, hlength]
  exact haccepted.windows_even

/-- The query with results that it has obtained. -/
def keeping (query : Query α) (results : List (ChunkResult α)) : Query α :=
  { query with results := some results }

variable {results : List (ChunkResult α)} {now : Instant} {stored : Store}

/-- Results that are obtained by way of the key are kept. -/
theorem ensureResults_of_obtained (hnone : query.results = none)
    (hobtain : query.cache.getOrCompute now store query.key (fun _ => query.compute store) =
      (.ok results, stored)) :
    query.ensureResults now store = (.ok results, query.keeping results, stored) := by
  rw [ensureResults, obtainResults, hnone]
  dsimp only
  rw [hobtain]
  rfl

/-- Results that are not stored yet are computed, stored and kept. -/
theorem ensureResults_fresh (hnone : query.results = none) (hcompute : query.compute store = .ok results)
    (hload : query.cache.load store query.key = .ok (none : Option (List (ChunkResult α))))
    (hsave : query.cache.save now store query.key results = (.ok (), stored)) :
    query.ensureResults now store = (.ok results, query.keeping results, stored) :=
  ensureResults_of_obtained hnone (Cache.getOrCompute_of_computed hload hcompute hsave)

/-- Results that are not stored yet are obtained if they can be computed and stored. -/
theorem ensureResults_of_saved (hnone : query.results = none)
    (hcompute : query.compute store = .ok results)
    (hload : query.cache.load store query.key = .ok (none : Option (List (ChunkResult α))))
    (hsave : (query.cache.save now store query.key results).1 = .ok ()) :
    (query.ensureResults now store).1 = .ok results := by
  rw [ensureResults_fresh hnone hcompute hload (Prod.ext hsave rfl)]

/-- Windows are formed of the results that a query obtains, wherever they come from. -/
theorem windows_of_ensureResults (hobtain : (query.ensureResults now store).1 = .ok results)
    (afterSplit : Bool) :
    (query.windows now store afterSplit).1 = query.windowsOf results afterSplit := by
  unfold ensureResults obtainResults at hobtain
  unfold windows ensureResults obtainResults
  cases hkept : query.results with
  | some kept =>
    simp only [hkept] at hobtain ⊢
    rw [Except.ok.inj hobtain]
  | none =>
    simp only [hkept] at hobtain ⊢
    rcases hget : query.cache.getOrCompute now store query.key fun _ => query.compute store with
      ⟨error | found, stored⟩
    · simp only [hget] at hobtain
      cases hobtain
    · simp only [hget] at hobtain ⊢
      rw [Except.ok.inj hobtain]
      rfl

variable {config : Config} {spec : QuerySpec α} {aggregator : Aggregator α}

/-- A computation of an accepted query gives one result for each chunk, the last one included if it is
partial, and the results that were counted come from whole chunks. Windows of these results, freshly
computed and stored or already kept, come out in the number that was counted. The one exception are
bounds applied region by region that the regions share. -/
theorem windows_of_computed_results (hquery : ofSpec config spec aggregator = .ok query)
    (hcompute : query.compute store = .ok results) :
    (∃ frames, config.analysisFrames spec.video = .ok frames ∧
      config.wordAnalysisFrames spec.video = .ok (frames % 2 ^ 64) ∧
      results.length = frames ⌈/⌉ spec.framesPerChunk ∧
      query.chunkCount = frames / spec.framesPerChunk) ∧
    query.windowCount = query.chunkCount / spec.chunksPerWindow ∧
    (∀ position < query.chunkCount, ∃ result chunks, results[position]? = some result ∧
      query.ComesFrom store position chunks result ∧
      ∀ chunk ∈ chunks, chunk.length = spec.framesPerChunk) ∧
    ∀ afterSplit, ∃ outcome : Outcome (List α),
      (∀ now stored,
        query.cache.load store query.key = .ok (none : Option (List (ChunkResult α))) →
        query.cache.save now store query.key results = (.ok (), stored) →
        query.windows now store afterSplit = (outcome, query.keeping results, stored)) ∧
      (∀ now other, (query.keeping results).windows now other afterSplit =
        (outcome, query.keeping results, other)) ∧
      (SharesBound spec ∧ afterSplit = false → outcome = .error (.setting (.noBoundForSplit 0))) ∧
      (¬(SharesBound spec ∧ afterSplit = false) →
        ∃ windows, outcome = .ok windows ∧ windows.length = query.windowCount) := by
  have haccepted := accepted_of_ofSpec hquery
  obtain ⟨chunks, -, rfl⟩ := ofSpec_eq_ok_iff.mp hquery
  have hreads := hcompute
  rw [compute_eq, computeWith_eq_ok_iff haccepted] at hreads
  obtain ⟨recordings, ⟨footage, hfootage, hreads⟩, rfl⟩ := hreads
  have hopens := haccepted.opens hfootage
  have hresults := resultsOf_eq hreads.read.length_eq.symm
  obtain ⟨hlength, hposition⟩ := hreads.rows_at haccepted hopens
  refine ⟨⟨footage.frameCount, hopens.frameCount_eq, Config.wordAnalysisFrames_eq_ok hopens.frameCount_eq, ?_,
    hopens.chunkCount_eq⟩, rfl, ?_, ?_⟩
  · rw [hresults, List.length_map, hlength, Footage.chunkCount, hopens.framesPerChunk_eq,
      Nat.ceilDiv_eq_add_pred_div]
  · intro position hlt
    obtain ⟨row, hat, hpairs, hwhole⟩ := hposition position hlt
    refine ⟨_, row, ?_, comesFrom_rowResult hfootage hreads hpairs, hwhole⟩
    rw [hresults, List.getElem?_map, hat]
    rfl
  · intro afterSplit
    refine ⟨windowsOf ⟨spec, aggregator, config, chunks, none, none⟩ _ afterSplit,
      fun now stored hload hsave => ?_, fun now other => rfl, ?_, ?_⟩
    · rw [windows, ensureResults_fresh rfl hcompute hload hsave]
      rfl
    · rintro ⟨hshares, rfl⟩
      exact windowsOf_resultsOf_of_sharesBound haccepted hopens hreads hshares
    · exact windowsOf_resultsOf haccepted hopens hreads

/-- Two regions that share their lower bound, in windows of three chunks of a thousand frames. -/
def sharedLower : QuerySpec ℚ where
  video := "street"
  rendition := .maskedRegions
  framesPerChunk := 1000
  chunksPerWindow := 3
  function := .sum
  privacy := some ⟨1, .scene 0, .perSplit [5, 5], .sum, some 2, 1⟩

/-- A store in which nothing was detected in either region. -/
def quietRegions : Store where
  entries :=
    [(["data"], .directory), (["data", "masked_features"], .directory),
      (["data", "masked_features", "street"], .directory),
      (["data", "masked_features", "street", "street0_m0.csv"], .file "".toUTF8),
      (["data", "masked_features", "street", "street0_m1.csv"], .file "".toUTF8)]

/-- The query for the two regions. -/
def sharedLowerQuery : Query ℚ := ⟨sharedLower, .zero ℚ, streetHours [0], 3, none, none⟩

set_option maxRecDepth 10000 in
/-- Of four results for 3600 frames, three make a window, except if bounds are applied region by
region. -/
theorem windows_of_computed_results_shared_lower :
    ofSpec (streetHours [0]) sharedLower (.zero ℚ) = .ok sharedLowerQuery ∧
    sharedLowerQuery.compute quietRegions = .ok (List.replicate 4 (.split [.plain 0, .plain 0])) ∧
    (∃ windows, (sharedLowerQuery.windows ⟨0, 0⟩ quietRegions true).1 = .ok windows ∧
      windows.length = 1) ∧
    (sharedLowerQuery.windows ⟨0, 0⟩ quietRegions false).1 =
      .error (.setting (.noBoundForSplit 0)) := by
  have hquery : ofSpec (streetHours [0]) sharedLower (.zero ℚ) = .ok sharedLowerQuery := rfl
  have hcompute : sharedLowerQuery.compute quietRegions =
      .ok (List.replicate 4 (.split [.plain 0, .plain 0])) := by decide +kernel
  have hload : sharedLowerQuery.cache.load quietRegions sharedLowerQuery.key =
      .ok (none : Option (List (ChunkResult ℚ))) := rfl
  have hsave : (sharedLowerQuery.cache.save ⟨0, 0⟩ quietRegions sharedLowerQuery.key
      (List.replicate 4 (.split [.plain (0 : ℚ), .plain 0]))).1 = .ok () := rfl
  have hshares : SharesBound sharedLower := ⟨rfl, _, rfl, .inl ⟨0, rfl⟩⟩
  obtain ⟨-, -, -, hwindows⟩ := windows_of_computed_results hquery hcompute
  refine ⟨hquery, hcompute, ?_, ?_⟩
  · obtain ⟨outcome, hfresh, -, -, hok⟩ := hwindows true
    obtain ⟨windows, rfl, hlength⟩ := hok (by simp)
    exact ⟨windows, by rw [hfresh ⟨0, 0⟩ _ hload (Prod.ext hsave rfl)], hlength⟩
  · obtain ⟨outcome, hfresh, -, herror, -⟩ := hwindows false
    rw [hfresh ⟨0, 0⟩ _ hload (Prod.ext hsave rfl)]
    exact herror ⟨hshares, rfl⟩

end Query

end PrivateFootage
