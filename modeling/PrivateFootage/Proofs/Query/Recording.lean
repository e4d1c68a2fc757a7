import Mathlib
import PrivateFootage.Proofs.Query.Stored

/-!
# Stored results of another recording

A key names the video but neither its hours nor the rates at which it is recorded and analysed. So a
query finds the results that were stored under its key whichever recording they were computed from.
They are refused only if there are too few of them; otherwise their first ones make the windows.
-/

namespace PrivateFootage.Query

variable {α : Type} [Scalar α] {query first second kept : Query α} {store stored : Store}
  {now later : Instant} {results : List (ChunkResult α)}

/-- Results that are stored under the key are the ones that are windowed. -/
theorem windows_of_load (hnone : query.results = none)
    (hload : query.cache.load store query.key = .ok (some results)) (now : Instant) (afterSplit : Bool) :
    query.windows now store afterSplit =
      (query.windowsOf results afterSplit, query.keeping results, store) := by
  rw [windows, ensureResults_of_obtained hnone (Cache.getOrCompute_of_stored hload)]
  rfl

/-- After a query has obtained its results, they are stored under its key. -/
theorem load_of_ensureResults (hnone : query.results = none) (hnow : now.Valid)
    (hresults : ∀ result ∈ results, result.Storable)
    (hobtain : query.ensureResults now store = (.ok results, kept, stored)) :
    query.cache.load stored query.key = .ok (some results) := by
  rw [ensureResults, obtainResults, hnone] at hobtain
  dsimp only at hobtain
  cases hget : query.cache.getOrCompute now store query.key (fun _ => query.compute store) with
  | mk outcome written =>
    rw [hget] at hobtain
    cases outcome with
    | error error => cases hobtain
    | ok obtained =>
      cases hobtain
      exact Cache.load_of_getOrCompute hresults hnow hget

variable {config other : Config} {spec : QuerySpec α} {aggregator : Aggregator α}

/-- Once a query has obtained results, the same query under another configuration of the same data
windows these very results, or finds them too few, whatever its own recording would give. -/
theorem windows_of_stored_results (hfirst : ofSpec config spec aggregator = .ok first)
    (hsecond : ofSpec other spec aggregator = .ok second) (hroot : other.dataRoot = config.dataRoot)
    (hnow : now.Valid) (hresults : ∀ result ∈ results, result.Storable)
    (hobtain : first.ensureResults now store = (.ok results, kept, stored)) (later : Instant)
    (afterSplit : Bool) :
    second.windows later stored afterSplit =
      (if results.length < second.chunkCount then
          .error (.data (.missingResults second.chunkCount spec.video results.length))
        else spec.windowing.aggregate (results.take second.chunkCount) afterSplit,
        second.keeping results, stored) := by
  obtain ⟨chunks, -, rfl⟩ := ofSpec_eq_ok_iff.mp hfirst
  obtain ⟨chunks', -, rfl⟩ := ofSpec_eq_ok_iff.mp hsecond
  have hload := load_of_ensureResults rfl hnow hresults hobtain
  have hcache : (⟨spec, aggregator, other, chunks', none, none⟩ : Query α).cache =
      (⟨spec, aggregator, config, chunks, none, none⟩ : Query α).cache := by
    simp only [cache, Config.resultsDirectory, hroot]
  rw [windows_of_load rfl (hcache ▸ hload)]
  rfl

/-- The aggregator that counts the detections in the first frame. -/
def firstFrameCount : Aggregator ℚ where
  descriptor := "FIRST_FRAME"
  invoke chunk := .ok (.plain (chunk.headD []).length)

/-- The detections in the first frame of an hour of the street. -/
def hourQuery (hour : UInt32) : Query ℚ where
  spec :=
    { video := "street", rendition := .unmasked, framesPerChunk := 3600, chunksPerWindow := 1,
      function := .sum }
  aggregator := firstFrameCount
  config := streetHours [hour]
  chunkCount := 1

/-- A store with a detection in the second hour of the street and none in the first. -/
def secondHourOnly : Store where
  entries :=
    [(["data"], .directory), (["data", "features"], .directory),
      (["data", "features", "street"], .directory),
      (["data", "features", "street", "street0.csv"], .file "".toUTF8),
      (["data", "features", "street", "street1.csv"], .file "0,0,0,1,1,1\n".toUTF8)]

/-- The first frame of an hour holds the rows of its first index. -/
theorem headD_sampleHour (decimation : Decimation) (rows : List (Row ℚ)) :
    (sampleHour decimation.frames rows).headD [] = (rowsByIndex rows).getD 0 [] := by
  have hpos : 0 < decimation.analysisPerHour := Nat.mul_pos decimation.analysis_pos (by decide)
  obtain ⟨count, hcount⟩ := Nat.exists_eq_succ_of_ne_zero hpos.ne'
  rw [sampleHour, decimation.frames_eq, hcount, List.range_succ_eq_map]
  rfl

/-- What the two hours come to. -/
theorem secondHourOnly_computed :
    (hourQuery 0).compute secondHourOnly = .ok [.single (.plain 0)] ∧
      (hourQuery 1).compute secondHourOnly = .ok [.single (.plain 1)] := by
  have hfirst : readHour secondHourOnly ((streetFootage 0 .unmasked).file 0 none) =
      .ok ([] : List (Row ℚ)) := by decide +kernel
  have hsecond : readHour secondHourOnly ((streetFootage 1 .unmasked).file 1 none) =
      .ok [(⟨0, 0, ⟨0, 0, 1, 1⟩, 1, []⟩ : Row ℚ)] := by decide +kernel
  have hvalue : ∀ rows count, ((rowsByIndex rows).getD 0 []).length = count →
      firstFrameCount.invoke (sampleHour (streetFootage 0 .unmasked).decimation.frames rows) =
        .ok (.plain (count : ℚ)) := by
    intro rows count hcount
    rw [firstFrameCount]
    dsimp only
    rw [headD_sampleHour, hcount]
  have hnone := hvalue [] 0 (by decide +kernel)
  have hone := hvalue [⟨0, 0, ⟨0, 0, 1, 1⟩, 1, []⟩] 1 (by decide +kernel)
  rw [Nat.cast_zero] at hnone
  rw [Nat.cast_one] at hone
  exact ⟨compute_street rfl rfl hfirst hnone, compute_street rfl rfl hsecond hone⟩

/-- The queries for the two hours compute and store their results. -/
theorem hourQuery_obtains {query : Query ℚ} (hquery : query = hourQuery 0 ∨ query = hourQuery 1)
    {results : List (ChunkResult ℚ)} (now : Instant)
    (hcompute : query.compute secondHourOnly = .ok results) :
    ∃ stored, query.ensureResults now secondHourOnly = (.ok results, query.keeping results, stored) := by
  have hnone : query.results = none := by rcases hquery with rfl | rfl <;> rfl
  have hmissing : secondHourOnly.readText (query.cache.path query.key) = .error .missing := by
    rcases hquery with rfl | rfl <;> rfl
  have hsave : (query.cache.save now secondHourOnly query.key results).1 = .ok () := by
    rcases hquery with rfl | rfl <;> rfl
  exact ⟨_, ensureResults_fresh hnone hcompute (Cache.load_of_missing hmissing) (Prod.ext hsave rfl)⟩

/-- The start of 1970 can be written. -/
theorem valid_start : Instant.Valid ⟨0, 0⟩ := by
  constructor <;> decide

/-- The query for the second hour windows the count of the first. -/
theorem windows_of_stored_results_second_hour :
    ∃ stored, (hourQuery 0).ensureResults ⟨0, 0⟩ secondHourOnly =
        (.ok [.single (.plain 0)], (hourQuery 0).keeping [.single (.plain 0)], stored) ∧
      ((hourQuery 1).windows ⟨1, 0⟩ stored true).1 =
        (hourQuery 1).spec.windowing.aggregate [.single (.plain 0)] true := by
  have hfirst : ofSpec (streetHours [0]) (hourQuery 0).spec firstFrameCount = .ok (hourQuery 0) := rfl
  have hsecond : ofSpec (streetHours [1]) (hourQuery 0).spec firstFrameCount = .ok (hourQuery 1) := rfl
  obtain ⟨stored, hobtain⟩ := hourQuery_obtains (.inl rfl) ⟨0, 0⟩ secondHourOnly_computed.1
  have hwindows := windows_of_stored_results hfirst hsecond rfl valid_start storable_zero hobtain
    ⟨1, 0⟩ true
  refine ⟨stored, hobtain, ?_⟩
  rw [hwindows]
  rfl

/-- One query is accepted for the first hour and for the second. With the count of the first hour stored,
the second comes to zero, though one object was detected in it. -/
theorem stored_results_hide_second_hour :
    ofSpec (streetHours [0]) (hourQuery 0).spec firstFrameCount = .ok (hourQuery 0) ∧
    ofSpec (streetHours [1]) (hourQuery 0).spec firstFrameCount = .ok (hourQuery 1) ∧
    ∃ stored, (hourQuery 0).ensureResults ⟨0, 0⟩ secondHourOnly =
        (.ok [.single (.plain 0)], (hourQuery 0).keeping [.single (.plain 0)], stored) ∧
      ((hourQuery 1).windows ⟨1, 0⟩ stored true).1 = .ok [0] ∧
      ((hourQuery 1).windows ⟨1, 0⟩ secondHourOnly true).1 = .ok [1] := by
  obtain ⟨hfirst, hsecond⟩ := secondHourOnly_computed
  obtain ⟨stored, hobtain⟩ := hourQuery_obtains (.inl rfl) ⟨0, 0⟩ hfirst
  obtain ⟨fresh, hfresh⟩ := hourQuery_obtains (.inr rfl) ⟨1, 0⟩ hsecond
  have hstale : (hourQuery 1).windowsOf [.single (.plain 0)] true = .ok [0] := by decide +kernel
  have hright : (hourQuery 1).windowsOf [.single (.plain 1)] true = .ok [1] := by decide +kernel
  have hload : (hourQuery 0).cache.load stored (hourQuery 0).key =
      .ok (some [.single (.plain (0 : ℚ))]) :=
    load_of_ensureResults rfl valid_start storable_zero hobtain
  have hcache : (hourQuery 1).cache = (hourQuery 0).cache := rfl
  have hkey : (hourQuery 1).key = (hourQuery 0).key := rfl
  rw [← hcache, ← hkey] at hload
  refine ⟨rfl, rfl, stored, hobtain, ?_, ?_⟩
  · rw [windows_of_load rfl hload, hstale]
  · rw [windows, hfresh]
    exact hright

end PrivateFootage.Query
