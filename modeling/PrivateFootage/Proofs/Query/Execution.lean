import Mathlib
import PrivateFootage.Proofs.ExactArithmetic
import PrivateFootage.Proofs.Query.Compute

/-!
# The order of work does not matter

Two switches say whether chunks and regions are worked on side by side. Neither is looked at when a
query is accepted or its footage is opened, so the chunks that the query reads are the same under all
settings. As a computation is determined by these chunks, all settings give the same results, or none
gives any.
-/

namespace PrivateFootage

namespace Query

variable {α : Type} [Scalar α]

/-- The query under other execution settings. -/
def withExecution (query : Query α) (execution : Execution) : Query α :=
  { query with config := { query.config with execution } }

variable {config : Config} {spec : QuerySpec α} {aggregator : Aggregator α} {query : Query α}

/-- Accepting a query does not look at the execution settings. -/
theorem ofSpec_withExecution (hquery : ofSpec config spec aggregator = .ok query)
    (execution : Execution) :
    ofSpec { config with execution } spec aggregator = .ok (query.withExecution execution) := by
  obtain ⟨chunks, hplan, rfl⟩ := ofSpec_eq_ok_iff.mp hquery
  exact ofSpec_eq_ok_iff.mpr ⟨chunks, hplan, rfl⟩

/-- The chunks that a query reads are the same under all execution settings. -/
theorem reads_withExecution (execution : Execution) (store : Store)
    (recordings : List (List (Chunk α))) :
    (query.withExecution execution).Reads store recordings ↔ query.Reads store recordings :=
  Iff.rfl

/-- Under all execution settings and all ways of collecting what is done side by side, a computation
comes to the results of the same chunks. -/
theorem computeWith_withExecution_eq_ok_iff (hquery : ofSpec config spec aggregator = .ok query)
    {execution : Execution} {collector : Collector} {store : Store}
    {results : List (ChunkResult α)} :
    (query.withExecution execution).computeWith collector store = .ok results ↔
      ∃ recordings, query.Reads store recordings ∧ query.resultsOf recordings = results := by
  have haccepted := accepted_of_ofSpec (ofSpec_withExecution hquery execution)
  rw [computeWith_eq_ok_iff haccepted]
  simp only [reads_withExecution]
  rfl

/-- An accepted query is accepted under all execution settings. Then either it computes the same
results under all of them, or it fails under all of them, and so it does however the outcomes of
work that is done side by side are collected. -/
theorem compute_same_under_all_executions (hquery : ofSpec config spec aggregator = .ok query)
    (store : Store) :
    (∀ execution,
      ofSpec { config with execution } spec aggregator = .ok (query.withExecution execution)) ∧
    ((∃ results, ∀ execution,
        (query.withExecution execution).compute store = .ok results ∧
        ∀ collector, (query.withExecution execution).computeWith collector store = .ok results) ∨
      ∀ execution,
        (∃ error, (query.withExecution execution).compute store = .error error) ∧
        ∀ collector, ∃ error,
          (query.withExecution execution).computeWith collector store = .error error) := by
  refine ⟨ofSpec_withExecution hquery, ?_⟩
  simp only [compute_eq, Outcome.fails_iff]
  by_cases hreads : ∃ recordings, query.Reads store recordings
  · obtain ⟨recordings, hrecordings⟩ := hreads
    have hresults : ∀ execution collector,
        (query.withExecution execution).computeWith collector store =
          .ok (query.resultsOf recordings) := fun execution collector =>
      (computeWith_withExecution_eq_ok_iff hquery).mpr ⟨recordings, hrecordings, rfl⟩
    exact .inl ⟨_, fun execution => ⟨hresults execution _, hresults execution⟩⟩
  · have hfails : ∀ execution collector results,
        (query.withExecution execution).computeWith collector store ≠ .ok results := by
      intro execution collector results h
      obtain ⟨recordings, hrecordings, -⟩ := (computeWith_withExecution_eq_ok_iff hquery).mp h
      exact hreads ⟨recordings, hrecordings⟩
    exact .inr fun execution => ⟨hfails execution _, hfails execution⟩

/-- The aggregator that counts detections. -/
def detectionCount : Aggregator ℚ where
  descriptor := "DETECTIONS"
  invoke chunk := .ok (.plain chunk.flatten.length)

/-- A sum over two regions of the street, with the hour as one chunk. -/
def twoRegions : QuerySpec ℚ where
  video := "street"
  rendition := .maskedRegions
  framesPerChunk := 3600
  chunksPerWindow := 1
  function := .sum
  privacy := some ⟨1, .scene 0, .scene 5, .sum, some 2, 1⟩

/-- A store with the file of the first region, and none of the second. -/
def firstRegionOnly : Store where
  entries :=
    [(["data"], .directory), (["data", "masked_features"], .directory),
      (["data", "masked_features", "street"], .directory),
      (["data", "masked_features", "street", "street0_m0.csv"], .file "0,0,0,1,1,1\n".toUTF8)]

/-- The query for two regions of the street. -/
def twoRegionsQuery : Query ℚ := ⟨twoRegions, detectionCount, streetHours [0], 1, none, none⟩

/-- With the file of the second region missing, no order of work gives results. -/
theorem compute_same_under_all_executions_missing_file :
    ofSpec (streetHours [0]) twoRegions detectionCount = .ok twoRegionsQuery ∧
      ∀ execution,
        (∃ error, (twoRegionsQuery.withExecution execution).compute firstRegionOnly = .error error) ∧
        ∀ collector, ∃ error,
          (twoRegionsQuery.withExecution execution).computeWith collector firstRegionOnly =
            .error error := by
  have hquery : ofSpec (streetHours [0]) twoRegions detectionCount = .ok twoRegionsQuery := rfl
  have hfootage : twoRegionsQuery.footage = .ok (streetFootage 0 .maskedRegions) := rfl
  have hmissing : (streetFootage 0 .maskedRegions).chunks firstRegionOnly (some 1) =
      .ok ([.error (.fileNotFound "/data/masked_features/street/street0_m1.csv")] :
        List (Outcome (Chunk ℚ))) := rfl
  refine ⟨hquery, ?_⟩
  rcases (compute_same_under_all_executions hquery firstRegionOnly).2 with ⟨results, hresults⟩ | hfails
  · exfalso
    obtain ⟨recordings, ⟨footage, hopen, hreads⟩, -⟩ :=
      (computeWith_withExecution_eq_ok_iff hquery).mp ((hresults {}).2 .inOrder)
    rw [hfootage, Except.ok.injEq] at hopen
    cases hreads.read with
    | cons _ hrest =>
      cases hrest with
      | @cons _ chunks _ _ hsecond _ =>
        rw [← hopen, hmissing, Except.ok.injEq] at hsecond
        exact not_breaksOff_map_ok chunks ⟨_, hsecond ▸ List.mem_singleton_self _⟩
  · exact hfails

end Query

end PrivateFootage
