import Mathlib
import PrivateFootage.Proofs.Cache.Files
import PrivateFootage.Proofs.Decimal.Nearest
import PrivateFootage.Proofs.Decimal.Reading

/-!
# What the text of a record tells

The text of a record tells its key, its time and its results apart from those of every other record if all
numbers in it are finite. Every finite double is read back from its text. One that is not finite is written
as null, and neither a value nor a pair nor an object with a list of them can hold null, so a record with such
a number is corrupt for every reader.
-/

namespace PrivateFootage

/-! ### Numbers -/

/-- A double that is not finite is written as null. -/
theorem Json.ofScalar_eq_null {value : Float} (hvalue : value.isFinite = false) :
    Json.ofScalar value = .null := by
  have hnone : Scalar.toDecimal? value = none := by
    change (Binary.ofFloat value).toDecimal? = none
    cases hbinary : Binary.ofFloat value with
    | finite negative significand exponent narrowBelow =>
      rw [Binary.isFinite_eq_true_iff.mpr ⟨_, _, _, _, hbinary⟩] at hvalue
      cases hvalue
    | infinite negative => rfl
    | notANumber => rfl
  rw [Json.ofScalar, hnone]

/-- A finite double is read back from its text. -/
theorem Json.roundTrips_of_isFinite {value : Float} (hvalue : value.isFinite = true) :
    Json.RoundTrips value := by
  obtain ⟨negative, significand, exponent, narrowBelow, hbinary⟩ := Binary.isFinite_eq_true_iff.mp hvalue
  have hdecimal : Scalar.toDecimal? value =
      some (Binary.shortest .toEven negative significand exponent narrowBelow) := by
    change (Binary.ofFloat value).toDecimal? = _
    rw [hbinary, Binary.toDecimal?]
  obtain ⟨read, hread, hsign, hmagnitude⟩ :=
    Decimal.read_documentChars (Binary.shortest .toEven negative significand exponent narrowBelow)
  rw [Binary.negative_shortest] at hsign
  have hdouble := Binary.ofDecimal_of_shortest hbinary hsign hmagnitude
  have hnearest : Scalar.ofDecimal? read = some value := by
    change (if (Double.ofDecimal read).isFinite then some (Double.ofDecimal read) else none) = _
    rw [hdouble, if_pos hvalue]
  rw [Json.RoundTrips, Json.ofScalar, hdecimal]
  dsimp only
  rw [Json.scalar?]
  dsimp only
  rw [hread, Option.bind_some, hnearest]

variable {α : Type} [Scalar α]

/-! ### Values and results -/

namespace ChunkValue

/-- The numbers of a chunk value. -/
def numbers : ChunkValue α → List α
  | .plain value => [value]
  | .corrected value correction => [value, correction]

/-- A chunk value is read back if its numbers are. -/
theorem storable_of_numbers {value : ChunkValue α}
    (hnumbers : ∀ number ∈ value.numbers, Json.RoundTrips number) : value.Storable := by
  cases value with
  | plain value => exact hnumbers value (by simp [numbers])
  | corrected value correction =>
    exact ⟨hnumbers value (by simp [numbers]), hnumbers correction (by simp [numbers])⟩

/-- A chunk value with a null in it is not read. -/
theorem ofJson?_toJson_eq_none {value : ChunkValue α} {number : α} (hnumber : number ∈ value.numbers)
    (hnull : Json.ofScalar number = .null) : (ofJson? value.toJson : Option (ChunkValue α)) = none := by
  cases value with
  | plain value =>
    rw [numbers, List.mem_singleton] at hnumber
    rw [toJson, ← hnumber, hnull]
    rfl
  | corrected value correction =>
    rw [toJson, ofJson?]
    rcases List.mem_pair.mp hnumber with rfl | rfl
    · rw [hnull]
      rfl
    · rw [hnull]
      cases ((Json.ofScalar value).scalar? : Option α) with
      | none => rfl
      | some value => rfl

end ChunkValue

namespace ChunkResult

/-- The numbers of a chunk result. -/
def numbers : ChunkResult α → List α
  | .single value => value.numbers
  | .split values => values.flatMap ChunkValue.numbers

/-- A chunk result is read back if its numbers are. -/
theorem storable_of_numbers {result : ChunkResult α}
    (hnumbers : ∀ number ∈ result.numbers, Json.RoundTrips number) : result.Storable := by
  cases result with
  | single value => exact ChunkValue.storable_of_numbers hnumbers
  | split values =>
    intro value hvalue
    apply ChunkValue.storable_of_numbers
    intro number hnumber
    exact hnumbers number (List.mem_flatMap.mpr ⟨value, hvalue, hnumber⟩)

/-- A chunk value is no result for regions. -/
theorem splitsOfJson?_value (value : ChunkValue α) :
    (splitsOfJson? value.toJson : Option (List (ChunkValue α))) = none := by
  cases value with
  | plain value =>
    rw [ChunkValue.toJson]
    rcases Json.ofScalar_cases value with ⟨literal, -, hwritten⟩ | hwritten
    · rw [hwritten]
      rfl
    · rw [hwritten]
      rfl
  | corrected value correction => rfl

/-- A chunk result with a null in it is not read. -/
theorem ofJson?_toJson_eq_none {result : ChunkResult α} {number : α} (hnumber : number ∈ result.numbers)
    (hnull : Json.ofScalar number = .null) (limit : ℕ) :
    (ofJson? limit result.toJson : Option (ChunkResult α)) = none := by
  rw [ofJson?]
  split
  · cases result with
    | single value =>
      have hnone := ChunkValue.ofJson?_toJson_eq_none hnumber hnull
      rw [toJson, hnone, splitsOfJson?_value]
      rfl
    | split values =>
      obtain ⟨value, hvalue, hmem⟩ := List.mem_flatMap.mp hnumber
      have hnone : (ChunkValue.ofJson? (toJson (.split values)) : Option (ChunkValue α)) = none :=
        ofJson?_object _
      rw [hnone, splitsOfJson?_split,
        Json.list?_map_eq_none hvalue (ChunkValue.ofJson?_toJson_eq_none hmem hnull)]
      rfl
  · rfl

end ChunkResult

/-! ### Records -/

/-- A record with a null in its results is not read. -/
theorem CacheRecord.ofText?_text_eq_none {record : CacheRecord α} {result : ChunkResult α} {number : α}
    (hvalid : ∀ time ∈ record.computedAt, time.Valid) (hresult : result ∈ record.results)
    (hnumber : number ∈ result.numbers) (hnull : Json.ofScalar number = .null) :
    (ofText? record.text : Option (CacheRecord α)) = none := by
  rw [ofText?, text, record.wellFormed_toJson.parse?_render, Option.bind_some,
    ofJson?_toJson_of_valid hvalid,
    Json.list?_map_eq_none hresult (ChunkResult.ofJson?_toJson_eq_none hnumber hnull _), Option.map_none]

/-- A record that is not read is corrupt for every load. -/
theorem Cache.load_of_corrupt {cache : Cache} {store : Store} {key text : String}
    (hread : store.readText (cache.path key) = .ok text)
    (hcorrupt : (CacheRecord.ofText? text : Option (CacheRecord α)) = none) :
    (cache.load store key : Outcome (Option (List (ChunkResult α)))) =
      .data (.corruptRecord (cache.path key)) := by
  delta load
  dsimp only
  rw [hread]
  dsimp only
  rw [hcorrupt]

/-- Every number in a sequence of results is finite. -/
def AllFinite (results : List (ChunkResult Float)) : Prop :=
  ∀ result ∈ results, ∀ number ∈ result.numbers, number.isFinite = true

instance instDecidableAllFinite (results : List (ChunkResult Float)) : Decidable (AllFinite results) :=
  inferInstanceAs (Decidable (∀ result ∈ results, ∀ number ∈ result.numbers, number.isFinite = true))

/-- Results of finite numbers are read back. -/
theorem AllFinite.storable {results : List (ChunkResult Float)} (hfinite : AllFinite results) :
    ∀ result ∈ results, result.Storable := fun result hresult =>
  ChunkResult.storable_of_numbers fun number hnumber =>
    Json.roundTrips_of_isFinite (hfinite result hresult number hnumber)

/-- Among results that are not all finite there is one with a null in it. -/
theorem exists_null_of_not_allFinite {results : List (ChunkResult Float)} (hnot : ¬AllFinite results) :
    ∃ result ∈ results, ∃ number ∈ result.numbers, Json.ofScalar number = .null := by
  simp only [AllFinite, not_forall] at hnot
  obtain ⟨result, hresult, number, hnumber, hnone⟩ := hnot
  exact ⟨result, hresult, number, hnumber, Json.ofScalar_eq_null (Bool.eq_false_of_not_eq_true hnone)⟩

/-- The text that is saved for results tells the key, the time and the results if all numbers are finite,
and then they are loaded. Otherwise it tells nothing, and a load reports a corrupt record by its path, followed
by what the reader of records remarks. -/
theorem Cache.saved_text_tells_record_iff {now : Instant} (hnow : now.Valid) (key : String)
    (results : List (ChunkResult Float)) :
    (∀ record, CacheRecord.ofText? (CacheRecord.text ⟨key, some now, results⟩) = some record ↔
      AllFinite results ∧ record = ⟨key, some now, results⟩) ∧
    ∀ (cache : Cache) (store stored : Store), cache.save now store key results = (.ok (), stored) →
      stored.readText (cache.path key) = .ok (CacheRecord.text ⟨key, some now, results⟩) ∧
      (AllFinite results → cache.load stored key = .ok (some results)) ∧
      (¬AllFinite results → ∃ error,
        (cache.load stored key : Outcome (Option (List (ChunkResult Float)))) = .error error ∧
        ∀ remark, error.wording remark =
          "Processing error: Corrupt cache record " ++ cache.path key ++ ": " ++ remark) := by
  have hvalid : ∀ time ∈ some now, time.Valid := fun time htime => Option.some.inj htime ▸ hnow
  have hread : AllFinite results →
      CacheRecord.ofText? (CacheRecord.text ⟨key, some now, results⟩) = some ⟨key, some now, results⟩ :=
    fun hfinite => CacheRecord.ofText?_text ⟨hfinite.storable, hvalid⟩
  have hcorrupt : ¬AllFinite results →
      (CacheRecord.ofText? (CacheRecord.text ⟨key, some now, results⟩) : Option (CacheRecord Float)) =
        none := by
    intro hnot
    obtain ⟨result, hresult, number, hnumber, hnull⟩ := exists_null_of_not_allFinite hnot
    exact CacheRecord.ofText?_text_eq_none hvalid hresult hnumber hnull
  refine ⟨fun record => ?_, fun cache store stored hsave => ?_⟩
  · by_cases hfinite : AllFinite results
    · rw [hread hfinite, Option.some.injEq, eq_comm]
      exact (and_iff_right hfinite).symm
    · rw [hcorrupt hfinite]
      exact ⟨fun hnone => (Option.some_ne_none _ hnone.symm).elim, fun htold => (hfinite htold.1).elim⟩
  · obtain ⟨prepared, -, hwrite⟩ := save_eq_ok_iff.mp hsave
    have htext := Store.readText_of_write hwrite
    refine ⟨htext, fun hfinite => load_of_save hfinite.storable hnow hsave, fun hnot => ?_⟩
    exact ⟨_, load_of_corrupt htext (hcorrupt hnot), fun _ => rfl⟩

/-- Results of every shape, with the largest double, the least positive one and a negative zero. -/
def finiteShapes : List (ChunkResult Float) :=
  [.single (.plain 0.1), .single (.corrected 1.7976931348623157e308 (-0.0)), .split [],
    .split [.plain 5e-324, .corrected 3 1e22]]

/-- Results with a correction that is no number. -/
def brokenShapes : List (ChunkResult Float) :=
  [.single (.plain 0.1), .split [.plain 1, .corrected 2 (0 / 0)]]

/-- Results of every shape are loaded as they were saved, and results with a non-number are corrupt. -/
theorem Cache.saved_text_tells_record_iff_shapes :
    (∃ stored, save ⟨"/results"⟩ ⟨0, 0⟩ Store.empty "count" finiteShapes = (.ok (), stored) ∧
      load ⟨"/results"⟩ stored "count" = .ok (some finiteShapes)) ∧
    ∃ stored, save ⟨"/results"⟩ ⟨0, 0⟩ Store.empty "count" brokenShapes = (.ok (), stored) ∧
      ∃ error, (load ⟨"/results"⟩ stored "count" : Outcome (Option (List (ChunkResult Float)))) = .error error ∧
        ∀ remark, error.wording remark =
          "Processing error: Corrupt cache record /results/count.json: " ++ remark := by
  have hvalid : Instant.Valid ⟨0, 0⟩ := by constructor <;> decide
  have hsave : ∀ results : List (ChunkResult Float), ∃ stored,
      save ⟨"/results"⟩ ⟨0, 0⟩ Store.empty "count" results = (.ok (), stored) := by
    intro results
    have hmake : Store.empty.makeDirectory "/results" = .ok (Store.empty.put ["results"] .directory) := rfl
    have hlocate : (Store.empty.put ["results"] .directory).locate "/results/count.json" =
        .ok ["results", "count.json"] := rfl
    have hfree : Store.entry? (Store.empty.put ["results"] .directory) ["results", "count.json"] = none := rfl
    have hwrite := Store.write_eq_ok_iff.mpr ⟨_, hlocate, by simp [Store.IsDirectory, hfree],
      Eq.refl (Store.put _ _ (.file (CacheRecord.text ⟨"count", some ⟨0, 0⟩, results⟩).toUTF8))⟩
    exact ⟨_, save_eq_ok_iff.mpr ⟨_, hmake, hwrite⟩⟩
  obtain ⟨stored, hstored⟩ := hsave finiteShapes
  obtain ⟨broken, hbroken⟩ := hsave brokenShapes
  have hfinite : AllFinite finiteShapes := by decide +kernel
  have hnot : ¬AllFinite brokenShapes := by decide +kernel
  exact ⟨⟨stored, hstored, ((saved_text_tells_record_iff hvalid _ _).2 _ _ _ hstored).2.1 hfinite⟩,
    broken, hbroken, ((saved_text_tells_record_iff hvalid _ _).2 _ _ _ hbroken).2.2 hnot⟩

end PrivateFootage
