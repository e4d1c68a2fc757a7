import Mathlib
import PrivateFootage.Proofs.Query.Accepted

/-!
# What a computation comes to, in whatever order it is done

Chunks and regions can be worked on one after another or side by side. When work is done side by side,
the outcomes are collected in order, and any of the errors may be the one that is reported. What the
results are is said here without any order of work: every region that the query reads is read to its
end, every chunk is aggregated, and the values at one position make one result. A computation succeeds
exactly in that case, and with exactly those results, under every order of work and every way of
choosing the error to report.
-/

namespace PrivateFootage

/-- A way to put outcomes together that are obtained side by side: in order if there is no error
among them, and one of the errors otherwise. -/
structure Collector where
  collect : {β : Type} → List (Outcome β) → Outcome (List β)
  collect_ok : ∀ {β : Type} (values : List β), collect (values.map .ok) = .ok values
  collect_error : ∀ {β : Type} (outcomes : List (Outcome β)), BreaksOff outcomes →
    ∃ error, .error error ∈ outcomes ∧ collect outcomes = .error error

namespace Collector

variable {β : Type}

/-- Outcomes without an error are obtained values. -/
theorem eq_map_ok_of_not_breaksOff {outcomes : List (Outcome β)} (hwhole : ¬BreaksOff outcomes) :
    ∃ values : List β, outcomes = values.map .ok := by
  induction outcomes with
  | nil => exact ⟨[], rfl⟩
  | cons outcome outcomes ih =>
    obtain ⟨values, rfl⟩ := ih fun ⟨error, herror⟩ => hwhole ⟨error, List.mem_cons_of_mem _ herror⟩
    cases outcome with
    | error error => exact absurd ⟨error, List.mem_cons_self ..⟩ hwhole
    | ok value => exact ⟨value :: values, rfl⟩

/-- Collecting succeeds exactly with the values of outcomes without an error. -/
theorem collect_eq_ok_iff (collector : Collector) {outcomes : List (Outcome β)} {values : List β} :
    collector.collect outcomes = .ok values ↔ outcomes = values.map .ok := by
  constructor
  · intro h
    by_cases hbroken : BreaksOff outcomes
    · obtain ⟨error, -, herror⟩ := collector.collect_error outcomes hbroken
      rw [herror] at h
      cases h
    · obtain ⟨obtained, rfl⟩ := eq_map_ok_of_not_breaksOff hbroken
      rw [collector.collect_ok, Except.ok.injEq] at h
      rw [h]
  · rintro rfl
    exact collector.collect_ok values

/-- The first error of a list of outcomes is one of them. -/
theorem mem_of_mapM_id {outcomes : List (Outcome β)} {error : Error}
    (herror : outcomes.mapM id = .error error) : .error error ∈ outcomes := by
  induction outcomes with
  | nil => cases herror
  | cons outcome outcomes ih =>
    rw [List.mapM_cons] at herror
    cases outcome with
    | error first =>
      cases herror
      exact List.mem_cons_self ..
    | ok value =>
      cases hrest : outcomes.mapM id with
      | error later =>
        rw [hrest] at herror
        cases herror
        exact List.mem_cons_of_mem _ (ih hrest)
      | ok values =>
        rw [hrest] at herror
        cases herror

/-- The collector that reports the first error. -/
def inOrder : Collector where
  collect outcomes := outcomes.mapM id
  collect_ok := Outcome.mapM_id_ok
  collect_error := by
    rintro β outcomes ⟨error, herror⟩
    obtain ⟨first, hfirst⟩ := (Outcome.mapM_fails_iff id).mpr ⟨_, herror, error, rfl⟩
    exact ⟨first, mem_of_mapM_id hfirst, hfirst⟩

variable {γ : Type}

/-- Collecting the outcomes of steps succeeds exactly if the steps do one after another. -/
theorem collect_map_eq_ok_iff (collector : Collector) {items : List β} {step : β → Outcome γ}
    {values : List γ} :
    collector.collect (items.map step) = .ok values ↔ items.mapM step = .ok values := by
  rw [collector.collect_eq_ok_iff, ← inOrder.collect_eq_ok_iff]
  change (items.map step).mapM id = .ok values ↔ _
  rw [List.mapM_map]
  rfl

/-- Working through a stream succeeds exactly if the stream does not break off and every step
succeeds, whether each item is read before its step or all are read first. -/
theorem work_eq_ok_iff (collector : Collector) {sideBySide : Bool} {stream : List (Outcome β)}
    {step : β → Outcome γ} {values : List γ} :
    (if sideBySide then stream.mapM id >>= fun items => collector.collect (items.map step)
      else stream.mapM fun item => item.bind step) = .ok values ↔
      ∃ items : List β, stream = items.map .ok ∧ items.mapM step = .ok values := by
  cases sideBySide with
  | true =>
    rw [if_pos rfl, Outcome.bind_eq_ok]
    apply exists_congr
    intro items
    rw [collector.collect_map_eq_ok_iff, ← inOrder.collect_eq_ok_iff]
    rfl
  | false =>
    rw [if_neg Bool.false_ne_true]
    constructor
    · intro h
      have hwhole : ¬BreaksOff stream := by
        rintro ⟨error, herror⟩
        obtain ⟨first, hfirst⟩ :=
          (Outcome.mapM_fails_iff fun item => item.bind step).mpr ⟨_, herror, error, rfl⟩
        rw [hfirst] at h
        cases h
      obtain ⟨items, rfl⟩ := eq_map_ok_of_not_breaksOff hwhole
      rw [List.mapM_map] at h
      exact ⟨items, rfl, h⟩
    · rintro ⟨items, rfl, hvalues⟩
      rw [List.mapM_map]
      exact hvalues

end Collector

namespace Query

variable {α : Type} [Scalar α]

/-- Aggregate chunks in order, with a collector for those worked on side by side. -/
def aggregateChunksWith (collector : Collector) (aggregator : Aggregator α) (sideBySide : Bool)
    (chunks : List (Outcome (Chunk α))) : Outcome (List (ChunkValue α)) :=
  if sideBySide then do
    let chunks ← chunks.mapM id
    collector.collect (chunks.map aggregator.invoke)
  else chunks.mapM fun chunk => chunk.bind aggregator.invoke

/-- Compute the results of regions, with a collector for what is worked on side by side. -/
def computeRegionsWith (collector : Collector) (query : Query α) (footage : Footage) (store : Store)
    (splits : ℕ) : Outcome (List (ChunkResult α)) :=
  let execution := query.config.execution
  if execution.parallelSplits then do
    let regions ← collector.collect ((List.range splits).map fun split => do
      aggregateChunksWith collector query.aggregator execution.parallelChunks
        (← footage.chunks store (some split)))
    .ok ((joinRows regions).map .split)
  else do
    let rows ← footage.lockstepChunks store splits
    if execution.parallelChunks then
      let rows ← rows.mapM id
      collector.collect (rows.map (aggregateRegions query.aggregator))
    else rows.mapM fun row => row.bind (aggregateRegions query.aggregator)

/-- Compute the results of all chunks of given footage, with a collector for what is worked on side by
side. -/
def computeFrom (collector : Collector) (query : Query α) (store : Store) (footage : Footage) :
    Outcome (List (ChunkResult α)) :=
  match query.spec.rendition with
  | .unmasked | .masked => do
    let values ← aggregateChunksWith collector query.aggregator query.config.execution.parallelChunks
      (← footage.chunks store none)
    .ok (values.map .single)
  | .maskedRegions =>
    match query.spec.privacy with
    | none => .setting .queryWithoutPrivacy
    | some privacy =>
      match privacy.splitCount with
      | none => .setting .queryWithoutSplitCount
      | some splits => query.computeRegionsWith collector footage store splits
  | .reserved => .error (.unsupported .reserved)

/-- Compute the results of all chunks, with a collector for what is worked on side by side. -/
def computeWith (collector : Collector) (query : Query α) (store : Store) :
    Outcome (List (ChunkResult α)) :=
  query.footage >>= query.computeFrom collector store

omit [Scalar α] in
/-- Collecting in order is aggregating one chunk after another. -/
theorem aggregateChunks_eq (aggregator : Aggregator α) (sideBySide : Bool)
    (chunks : List (Outcome (Chunk α))) :
    aggregateChunks aggregator sideBySide chunks =
      aggregateChunksWith .inOrder aggregator sideBySide chunks := by
  simp only [aggregateChunks, aggregateChunksWith, Collector.inOrder, List.mapM_map]
  rfl

/-- The computation that runs collects in order. -/
theorem compute_eq (query : Query α) (store : Store) :
    query.compute store = query.computeWith .inOrder store := by
  rw [compute, computeWith]
  apply congrArg (query.footage >>= ·)
  funext footage
  simp only [computeFrom, computeRegions, computeRegionsWith, aggregateChunks_eq, Collector.inOrder,
    List.mapM_map]
  rfl

/-- The value that an aggregator gives to a chunk, zero where it fails. -/
def valueOf (aggregator : Aggregator α) (chunk : Chunk α) : ChunkValue α :=
  match aggregator.invoke chunk with
  | .ok value => value
  | .error _ => .plain 0

/-- One result for each position, from the values of all regions. -/
def assemble (rendition : Rendition) (regions : List (List (ChunkValue α))) : List (ChunkResult α) :=
  if rendition.isSplit then (joinRows regions).map .split else regions.flatten.map .single

/-- The chunks of several regions, if all of them can be read and aggregated. -/
structure ReadsRegions (aggregator : Aggregator α) (footage : Footage) (store : Store)
    (regions : List (Option ℕ)) (recordings : List (List (Chunk α))) : Prop where
  read : List.Forall₂ (fun region chunks => footage.chunks store region = .ok (chunks.map .ok))
    regions recordings
  aggregated : ∀ chunks ∈ recordings, ∀ chunk ∈ chunks, ∃ value, aggregator.invoke chunk = .ok value

/-- The chunks that a query reads, region by region, if all of them can be read and aggregated. -/
def Reads (query : Query α) (store : Store) (recordings : List (List (Chunk α))) : Prop :=
  ∃ footage, query.footage = .ok footage ∧
    ReadsRegions query.aggregator footage store query.regions recordings

/-- The results of the chunks that a query reads. -/
def resultsOf (query : Query α) (recordings : List (List (Chunk α))) : List (ChunkResult α) :=
  assemble query.spec.rendition (recordings.map (List.map (valueOf query.aggregator)))

variable {aggregator : Aggregator α} {collector : Collector}

/-- An aggregator that succeeds on a chunk gives it its value. -/
theorem invoke_eq_valueOf {chunk : Chunk α} (hchunk : ∃ value, aggregator.invoke chunk = .ok value) :
    aggregator.invoke chunk = .ok (valueOf aggregator chunk) := by
  obtain ⟨value, hvalue⟩ := hchunk
  rw [valueOf, hvalue]

/-- An aggregator gives a chunk a value exactly if it succeeds, and then this one. -/
theorem invoke_eq_ok_iff (chunk : Chunk α) (value : ChunkValue α) :
    aggregator.invoke chunk = .ok value ↔
      (∃ value, aggregator.invoke chunk = .ok value) ∧ valueOf aggregator chunk = value := by
  constructor
  · intro h
    exact ⟨⟨value, h⟩, by rw [valueOf, h]⟩
  · rintro ⟨hchunk, rfl⟩
    exact invoke_eq_valueOf hchunk

/-- The chunks of a row are aggregated exactly if each of them can be. -/
theorem aggregateRegions_eq_ok_iff (row : List (Chunk α)) (result : ChunkResult α) :
    aggregateRegions aggregator row = .ok result ↔
      (∀ chunk ∈ row, ∃ value, aggregator.invoke chunk = .ok value) ∧
        .split (row.map (valueOf aggregator)) = result := by
  have hrow : ∀ values, row.mapM aggregator.invoke = .ok values ↔ _ :=
    fun values => Outcome.mapM_eq_ok_iff_of invoke_eq_ok_iff
  rw [aggregateRegions]
  constructor
  · intro h
    cases hvalues : row.mapM aggregator.invoke with
    | error error =>
      rw [hvalues] at h
      cases h
    | ok values =>
      rw [hvalues] at h
      obtain ⟨heach, rfl⟩ := (hrow values).mp hvalues
      exact ⟨heach, Except.ok.inj h⟩
  · rintro ⟨heach, rfl⟩
    rw [(hrow _).mpr ⟨heach, rfl⟩]
    rfl

/-- A stream of chunks is aggregated exactly if it does not break off and every chunk can be
aggregated, whatever the order of work. -/
theorem aggregateChunksWith_eq_ok_iff {sideBySide : Bool} {stream : List (Outcome (Chunk α))}
    {values : List (ChunkValue α)} :
    aggregateChunksWith collector aggregator sideBySide stream = .ok values ↔
      ∃ chunks : List (Chunk α), stream = chunks.map .ok ∧
        (∀ chunk ∈ chunks, ∃ value, aggregator.invoke chunk = .ok value) ∧
        chunks.map (valueOf aggregator) = values := by
  rw [aggregateChunksWith, collector.work_eq_ok_iff]
  simp only [Outcome.mapM_eq_ok_iff_of invoke_eq_ok_iff]

variable {query : Query α} {footage : Footage} {store : Store} {results : List (ChunkResult α)}

/-- One region is read and aggregated exactly if the list of it alone can be. -/
theorem chunks_bind_eq_ok_iff {region : Option ℕ} {sideBySide : Bool}
    {values : List (ChunkValue α)} :
    (footage.chunks store region >>= aggregateChunksWith collector aggregator sideBySide) =
        .ok values ↔
      ∃ chunks : List (Chunk α),
        (footage.chunks store region = .ok (chunks.map .ok) ∧
          ∀ chunk ∈ chunks, ∃ value, aggregator.invoke chunk = .ok value) ∧
        chunks.map (valueOf aggregator) = values := by
  rw [Outcome.bind_eq_ok]
  simp only [aggregateChunksWith_eq_ok_iff]
  constructor
  · rintro ⟨stream, hstream, chunks, rfl, heach, hvalues⟩
    exact ⟨chunks, ⟨hstream, heach⟩, hvalues⟩
  · rintro ⟨chunks, ⟨hstream, heach⟩, hvalues⟩
    exact ⟨_, hstream, chunks, rfl, heach, hvalues⟩

/-- Regions are read and aggregated together exactly if each one is. -/
theorem readsRegions_iff {regions : List (Option ℕ)} {recordings : List (List (Chunk α))} :
    ReadsRegions aggregator footage store regions recordings ↔
      List.Forall₂ (fun region chunks => footage.chunks store region = .ok (chunks.map .ok) ∧
        ∀ chunk ∈ chunks, ∃ value, aggregator.invoke chunk = .ok value) regions recordings := by
  constructor
  · rintro ⟨hread, haggregated⟩
    induction hread with
    | nil => exact .nil
    | cons hhead _ ih =>
      rw [List.forall_mem_cons] at haggregated
      exact .cons ⟨hhead, haggregated.1⟩ (ih haggregated.2)
  · intro h
    induction h with
    | nil => exact ⟨.nil, by simp⟩
    | cons hhead _ ih =>
      exact ⟨.cons hhead.1 ih.read, List.forall_mem_cons.mpr ⟨hhead.2, ih.aggregated⟩⟩

variable {splits : ℕ}

/-- Regions worked on one by one succeed exactly if all of them are read and aggregated. -/
theorem collect_regions_eq_ok_iff {sideBySide : Bool} {regions : List (List (ChunkValue α))} :
    collector.collect ((List.range splits).map fun split =>
        footage.chunks store (some split) >>=
          aggregateChunksWith collector aggregator sideBySide) = .ok regions ↔
      ∃ recordings : List (List (Chunk α)),
        ReadsRegions aggregator footage store ((List.range splits).map some) recordings ∧
        recordings.map (List.map (valueOf aggregator)) = regions := by
  have hvalues : ∀ recordings : List (List (Chunk α)),
      List.Forall₂ (fun chunks values => chunks.map (valueOf aggregator) = values) recordings regions ↔
        recordings.map (List.map (valueOf aggregator)) = regions := by
    intro recordings
    rw [← List.forall₂_map_left_iff, List.forall₂_eq_eq_eq]
  simp only [collector.collect_map_eq_ok_iff, Outcome.mapM_eq_ok_iff, chunks_bind_eq_ok_iff,
    forall₂_exists_iff, hvalues, readsRegions_iff, List.forall₂_map_left_iff]

/-- Rows of chunks are aggregated exactly if all chunks in them can be. -/
theorem mapM_aggregateRegions_eq_ok_iff {rows : List (List (Chunk α))} :
    rows.mapM (aggregateRegions aggregator) = .ok results ↔
      (∀ row ∈ rows, ∀ chunk ∈ row, ∃ value, aggregator.invoke chunk = .ok value) ∧
        rows.map (fun row => .split (row.map (valueOf aggregator))) = results :=
  Outcome.mapM_eq_ok_iff_of aggregateRegions_eq_ok_iff

/-- Regions of one length read in step succeed exactly if all of them are read and aggregated. -/
theorem lockstep_regions_eq_ok_iff {sideBySide : Bool} {length : ℕ}
    (hopens : ∀ split < splits, ∃ stream : List (Outcome (Chunk α)),
      footage.chunks store (some split) = .ok stream ∧ ReadUpTo length stream) :
    (footage.lockstepChunks store splits >>= fun rows : List (Outcome (List (Chunk α))) =>
      if sideBySide then
        rows.mapM id >>= fun rows => collector.collect (rows.map (aggregateRegions aggregator))
      else rows.mapM fun row => row.bind (aggregateRegions aggregator)) = .ok results ↔
      ∃ recordings : List (List (Chunk α)),
        ReadsRegions aggregator footage store ((List.range splits).map some) recordings ∧
        (joinRows (recordings.map (List.map (valueOf aggregator)))).map .split = results := by
  have hreadUpTo : ∀ streams : List (List (Outcome (Chunk α))),
      List.Forall₂ (fun split stream => footage.chunks store (some split) = .ok stream)
        (List.range splits) streams → ∀ stream ∈ streams, ReadUpTo length stream := by
    intro streams hstreams stream hstream
    obtain ⟨split, hsplit, hchunks⟩ := exists_left_of_forall₂ hstreams hstream
    obtain ⟨opened, hopen, hread⟩ := hopens split (List.mem_range.mp hsplit)
    rw [hopen, Except.ok.injEq] at hchunks
    rwa [hchunks] at hread
  -- The same streams are read on both sides, so both know the length that joining by position needs.
  have hlengths : ∀ recordings : List (List (Chunk α)),
      List.Forall₂ (fun split chunks => footage.chunks store (some split) = .ok (chunks.map .ok))
        (List.range splits) recordings → ∀ chunks ∈ recordings, chunks.length = length := by
    intro recordings hread chunks hchunks
    apply ReadUpTo.length_eq
    exact hreadUpTo _ (List.forall₂_map_right_iff.mpr hread) _ (List.mem_map_of_mem hchunks)
  simp only [Footage.lockstepChunks, Outcome.bind_eq_ok, collector.work_eq_ok_iff,
    mapM_aggregateRegions_eq_ok_iff]
  simp only [Outcome.mapM_eq_ok_iff, Except.ok.injEq]
  constructor
  · rintro ⟨_, ⟨streams, hstreams, rfl⟩, rows, hrows, heach, rfl⟩
    obtain ⟨recordings, rfl, rfl⟩ :=
      (lockstep_eq_map_ok_iff (hreadUpTo streams hstreams)).mp hrows
    have hread := List.forall₂_map_right_iff.mp hstreams
    refine ⟨recordings, ⟨List.forall₂_map_left_iff.mpr hread, ?_⟩, ?_⟩
    · intro chunks hchunks chunk hchunk
      obtain ⟨row, hrow, hmem⟩ :=
        exists_mem_joinRows (hlengths recordings hread) hchunks hchunk
      exact heach row hrow chunk hmem
    · rw [joinRows_map, List.map_map]
      rfl
  · rintro ⟨recordings, hreads, rfl⟩
    have hread := List.forall₂_map_left_iff.mp hreads.read
    refine ⟨_, ⟨_, List.forall₂_map_right_iff.mpr hread, rfl⟩, joinRows recordings,
      lockstep_map_ok recordings, ?_, ?_⟩
    · intro row hrow chunk hchunk
      obtain ⟨chunks, hchunks, hmem⟩ :=
        exists_mem_of_mem_joinRows (hlengths recordings hread) hrow hchunk
      exact hreads.aggregated chunks hchunks chunk hmem
    · rw [joinRows_map, List.map_map]
      rfl

/-- The results of regions are computed exactly if all regions are read and aggregated, under every
order of work. -/
theorem computeRegionsWith_eq_ok_iff {length : ℕ}
    (hopens : ∀ split < splits, ∃ stream : List (Outcome (Chunk α)),
      footage.chunks store (some split) = .ok stream ∧ ReadUpTo length stream) :
    query.computeRegionsWith collector footage store splits = .ok results ↔
      ∃ recordings : List (List (Chunk α)),
        ReadsRegions query.aggregator footage store ((List.range splits).map some) recordings ∧
        (joinRows (recordings.map (List.map (valueOf query.aggregator)))).map .split = results := by
  rw [computeRegionsWith]
  cases hsplits : query.config.execution.parallelSplits with
  | true =>
    rw [if_pos rfl, Outcome.bind_eq_ok]
    simp only [collect_regions_eq_ok_iff, Except.ok.injEq]
    constructor
    · rintro ⟨_, ⟨recordings, hreads, rfl⟩, rfl⟩
      exact ⟨recordings, hreads, rfl⟩
    · rintro ⟨recordings, hreads, rfl⟩
      exact ⟨_, ⟨recordings, hreads, rfl⟩, rfl⟩
  | false =>
    rw [if_neg Bool.false_ne_true]
    exact lockstep_regions_eq_ok_iff hopens

/-- The results of the whole scene are computed exactly if it is read and aggregated. -/
theorem computeScene_eq_ok_iff {sideBySide : Bool} :
    (footage.chunks store none >>= fun stream =>
        aggregateChunksWith collector aggregator sideBySide stream >>= fun values =>
          .ok (values.map .single)) = .ok results ↔
      ∃ recordings, ReadsRegions aggregator footage store [none] recordings ∧
        (recordings.map (List.map (valueOf aggregator))).flatten.map .single = results := by
  rw [← bind_assoc, Outcome.bind_eq_ok]
  simp only [chunks_bind_eq_ok_iff, readsRegions_iff, Except.ok.injEq]
  constructor
  · rintro ⟨_, ⟨chunks, hchunks, rfl⟩, rfl⟩
    exact ⟨[chunks], .cons hchunks .nil, by simp⟩
  · rintro ⟨_, hread, rfl⟩
    cases hread with
    | cons hchunks hrest =>
      cases hrest
      exact ⟨_, ⟨_, hchunks, rfl⟩, by simp⟩

/-- The results of opened footage are computed exactly if every region is read and aggregated. -/
theorem computeFrom_eq_ok_iff (haccepted : query.Accepted) (hopens : query.Opens footage) :
    query.computeFrom collector store footage = .ok results ↔
      ∃ recordings, ReadsRegions query.aggregator footage store query.regions recordings ∧
        query.resultsOf recordings = results := by
  have hframes : 0 < footage.framesPerChunk := by
    rw [hopens.framesPerChunk_eq]
    exact haccepted.framesPerChunk_pos
  have hregion := hopens.hasRegion
  cases hrendition : query.spec.rendition with
  | unmasked =>
    simp only [computeFrom, regions, resultsOf, assemble, hrendition]
    exact computeScene_eq_ok_iff
  | masked =>
    simp only [computeFrom, regions, resultsOf, assemble, hrendition]
    exact computeScene_eq_ok_iff
  | maskedRegions =>
    obtain ⟨params, count, hparams, hcount, -⟩ := haccepted.regions_count hrendition
    rw [regions_eq hrendition hparams hcount] at hregion ⊢
    simp only [computeFrom, resultsOf, assemble, hrendition, hparams, hcount]
    apply computeRegionsWith_eq_ok_iff
    intro split hsplit
    have hhas := hregion (some split) (List.mem_map_of_mem (List.mem_range.mpr hsplit))
    exact Footage.chunks_readUpTo hhas hframes hopens.frameCount_pos store
  | reserved => exact absurd hrendition haccepted.rendition_ne

/-- A computation succeeds exactly if every chunk that the query reads can be read and aggregated, and
then with the results of these chunks, under every order of work. -/
theorem computeWith_eq_ok_iff (haccepted : query.Accepted) :
    query.computeWith collector store = .ok results ↔
      ∃ recordings, query.Reads store recordings ∧ query.resultsOf recordings = results := by
  rw [computeWith, Outcome.bind_eq_ok]
  constructor
  · rintro ⟨footage, hfootage, hresults⟩
    obtain ⟨recordings, hreads, hresults⟩ :=
      (computeFrom_eq_ok_iff haccepted (haccepted.opens hfootage)).mp hresults
    exact ⟨recordings, ⟨footage, hfootage, hreads⟩, hresults⟩
  · rintro ⟨recordings, ⟨footage, hfootage, hreads⟩, hresults⟩
    exact ⟨footage, hfootage,
      (computeFrom_eq_ok_iff haccepted (haccepted.opens hfootage)).mpr ⟨recordings, hreads, hresults⟩⟩

/-- A scene of one chunk has one result. -/
theorem compute_of_single_chunk
    (hrendition : query.spec.rendition = .unmasked ∨ query.spec.rendition = .masked)
    (hfootage : query.footage = .ok footage) {chunk : Chunk α} {value : ChunkValue α}
    (hchunks : footage.chunks store none = .ok [.ok chunk])
    (hvalue : query.aggregator.invoke chunk = .ok value) :
    query.compute store = .ok [.single value] := by
  have hscene : (footage.chunks store none >>= fun stream =>
      aggregateChunksWith .inOrder query.aggregator query.config.execution.parallelChunks stream >>=
        fun values => .ok (values.map ChunkResult.single)) = .ok [.single value] := by
    refine computeScene_eq_ok_iff.mpr ⟨[[chunk]], readsRegions_iff.mpr (.cons ⟨hchunks, ?_⟩ .nil), ?_⟩
    · simpa using ⟨value, hvalue⟩
    · simp [valueOf, hvalue]
  rw [compute_eq, computeWith, hfootage]
  change query.computeFrom .inOrder store footage = _
  rcases hrendition with hrendition | hrendition
  · simpa only [computeFrom, hrendition] using hscene
  · simpa only [computeFrom, hrendition] using hscene

/-- The result of a query for an hour of the street as one chunk. -/
theorem compute_street {hour : UInt32} (hrendition : query.spec.rendition = .unmasked)
    (hfootage : query.footage = .ok (streetFootage hour .unmasked)) {rows : List (Row α)}
    {value : ChunkValue α}
    (hread : readHour store ((streetFootage hour .unmasked).file hour none) = .ok rows)
    (hvalue : query.aggregator.invoke
      (sampleHour (streetFootage hour .unmasked).decimation.frames rows) = .ok value) :
    query.compute store = .ok [.single value] := by
  have hregion : (streetFootage hour .unmasked).HasRegion none := Or.inl rfl
  have hsize : (streetFootage hour .unmasked).framesPerChunk =
      (streetFootage hour .unmasked).decimation.analysisPerHour := by
    simp [streetFootage, Decimation.analysisPerHour, secondsPerHour]
  exact compute_of_single_chunk (.inl hrendition) hfootage
    (Footage.chunks_hour hregion rfl hsize (by decide : 3600 ≤ chunkCapacity) hread) hvalue

end Query

end PrivateFootage
