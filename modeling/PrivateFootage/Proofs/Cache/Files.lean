import Mathlib
import PrivateFootage.Proofs.Cache.Record
import PrivateFootage.Proofs.Store.Write

/-!
# Results are loaded as they were saved

Saving makes the directory and writes one record; loading the key then gives the results that were
saved. Obtaining results loads them, or computes and saves them, and in both cases the next load of the
key gives the same results.
-/

namespace PrivateFootage.Cache

variable {α : Type} [Scalar α] {cache : Cache} {store stored : Store} {key : String} {now : Instant}
  {results : List (ChunkResult α)}

/-- A key whose file is missing has no results. -/
theorem load_of_missing (hread : store.readText (cache.path key) = .error .missing) :
    cache.load store key = .ok (none : Option (List (ChunkResult α))) := by
  delta load
  dsimp only
  rw [hread]

/-- The results of a record that was written are loaded. -/
theorem load_of_record {record : CacheRecord α} (hrecord : record.Storable)
    (hread : store.readText (cache.path key) = .ok record.text) :
    cache.load store key = .ok (some record.results) := by
  delta load
  dsimp only
  rw [hread]
  dsimp only
  rw [CacheRecord.ofText?_text hrecord]

/-- Saving makes the directory and writes the record. -/
theorem save_eq_ok_iff :
    cache.save now store key results = (.ok (), stored) ↔
      ∃ prepared, store.makeDirectory cache.directory = .ok prepared ∧
        prepared.write (cache.path key) (CacheRecord.text ⟨key, some now, results⟩).toUTF8 = .ok stored := by
  rw [save]
  cases store.makeDirectory cache.directory with
  | error fault => simp
  | ok prepared =>
    dsimp only
    constructor
    · intro hsave
      cases hwrite : prepared.write (cache.path key)
          (CacheRecord.text ⟨key, some now, results⟩).toUTF8 with
      | error fault =>
        rw [hwrite] at hsave
        cases hsave
      | ok written =>
        rw [hwrite] at hsave
        cases hsave
        exact ⟨prepared, rfl, hwrite⟩
    · rintro ⟨other, hother, hwrite⟩
      cases hother
      rw [hwrite]

/-- Results are loaded as they were saved. -/
theorem load_of_save (hresults : ∀ result ∈ results, result.Storable) (hnow : now.Valid)
    (hsave : cache.save now store key results = (.ok (), stored)) :
    cache.load stored key = .ok (some results) := by
  obtain ⟨prepared, -, hwrite⟩ := save_eq_ok_iff.mp hsave
  have hrecord : (⟨key, some now, results⟩ : CacheRecord α).Storable :=
    ⟨hresults, fun time htime => Option.some.inj htime ▸ hnow⟩
  exact load_of_record hrecord (Store.readText_of_write hwrite)

variable {compute : Unit → Outcome (List (ChunkResult α))}

/-- Results that are stored are obtained, and nothing is computed. -/
theorem getOrCompute_of_stored (hload : cache.load store key = .ok (some results)) :
    cache.getOrCompute now store key compute = (.ok results, store) := by
  delta getOrCompute
  rw [hload]

/-- A record that cannot be loaded is left as it is, and nothing is computed. -/
theorem getOrCompute_of_unreadable {error : Error}
    (hload : (cache.load store key : Outcome (Option (List (ChunkResult α)))) = .error error) :
    cache.getOrCompute now store key compute = (.error error, store) := by
  delta getOrCompute
  rw [hload]

/-- A computation that fails leaves the store as it is. -/
theorem getOrCompute_of_error {error : Error}
    (hload : cache.load store key = .ok (none : Option (List (ChunkResult α))))
    (hcompute : compute () = .error error) :
    cache.getOrCompute now store key compute = (.error error, store) := by
  delta getOrCompute
  rw [hload]
  dsimp only
  rw [hcompute]

/-- Results that are not stored are computed and saved. -/
theorem getOrCompute_of_computed
    (hload : cache.load store key = .ok (none : Option (List (ChunkResult α))))
    (hcompute : compute () = .ok results)
    (hsave : cache.save now store key results = (.ok (), stored)) :
    cache.getOrCompute now store key compute = (.ok results, stored) := by
  delta getOrCompute
  rw [hload]
  dsimp only
  rw [hcompute]
  dsimp only
  rw [hsave]

/-- Results that were obtained were stored before, or they were computed and saved. -/
theorem getOrCompute_eq_ok (hobtain : cache.getOrCompute now store key compute = (.ok results, stored)) :
    (cache.load store key = .ok (some results) ∧ stored = store) ∨
      (cache.load store key = .ok (none : Option (List (ChunkResult α))) ∧ compute () = .ok results ∧
        cache.save now store key results = (.ok (), stored)) := by
  delta getOrCompute at hobtain
  cases hload : (cache.load store key : Outcome (Option (List (ChunkResult α)))) with
  | error error =>
    rw [hload] at hobtain
    cases hobtain
  | ok found =>
    rw [hload] at hobtain
    cases found with
    | some found =>
      cases hobtain
      exact .inl ⟨rfl, rfl⟩
    | none =>
      dsimp only at hobtain
      cases hcompute : compute () with
      | error error =>
        rw [hcompute] at hobtain
        cases hobtain
      | ok computed =>
        rw [hcompute] at hobtain
        dsimp only at hobtain
        cases hsave : cache.save now store key computed with
        | mk outcome saved =>
          rw [hsave] at hobtain
          cases outcome with
          | error error => cases hobtain
          | ok done =>
            cases hobtain
            exact .inr ⟨rfl, rfl, hsave⟩

/-- Once results were obtained, they are the ones that a load of the key gives. -/
theorem load_of_getOrCompute (hresults : ∀ result ∈ results, result.Storable) (hnow : now.Valid)
    (hobtain : cache.getOrCompute now store key compute = (.ok results, stored)) :
    cache.load stored key = .ok (some results) := by
  rcases getOrCompute_eq_ok hobtain with ⟨hload, rfl⟩ | ⟨-, -, hsave⟩
  · exact hload
  · exact load_of_save hresults hnow hsave

end PrivateFootage.Cache
