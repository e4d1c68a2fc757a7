import Mathlib
import PrivateFootage.Cache
import PrivateFootage.Proofs.Instant.Text
import PrivateFootage.Proofs.Json.Number
import PrivateFootage.Proofs.Json.Reading

/-!
# Stored records are read back

A chunk result is a number, a pair of numbers or an object with one member, and no two of these have
a value in common. So a record is read back from its text, with its key and every result in its place,
if the numbers it holds are read back from theirs. A number that is not finite never is: it is written
as null.
-/

namespace PrivateFootage

variable {α : Type} [Scalar α]

/-- A number that is read back from its value. -/
def Json.RoundTrips (value : α) : Prop :=
  (Json.ofScalar value).scalar? = some value

/-- The value of a number is a number, or null if it is not finite. -/
theorem Json.ofScalar_cases (value : α) :
    (∃ literal, isNumber literal = true ∧ Json.ofScalar value = .number literal) ∨
      Json.ofScalar value = .null := by
  unfold Json.ofScalar
  cases Scalar.toDecimal? value with
  | none => exact .inr rfl
  | some decimal => exact .inl ⟨_, isNumber_documentChars decimal, rfl⟩

/-- The value of a number is well-formed. -/
theorem Json.wellFormed_ofScalar (value : α) : WellFormed (ofScalar value) := by
  rcases Json.ofScalar_cases value with ⟨literal, hliteral, hvalue⟩ | hvalue
  · rw [hvalue]
    exact .number hliteral
  · rw [hvalue]
    exact .null

namespace ChunkValue

/-- A chunk value whose numbers are read back. -/
def Storable : ChunkValue α → Prop
  | .plain value => Json.RoundTrips value
  | .corrected value correction => Json.RoundTrips value ∧ Json.RoundTrips correction

/-- The JSON value of a chunk value is well-formed. -/
theorem wellFormed_toJson (value : ChunkValue α) : value.toJson.WellFormed := by
  cases value with
  | plain value => exact Json.wellFormed_ofScalar value
  | corrected value correction =>
    apply Json.WellFormed.array
    intro item hitem
    rcases List.mem_pair.mp hitem with rfl | rfl <;> exact Json.wellFormed_ofScalar _

/-- A chunk value is read back. -/
theorem ofJson?_toJson {value : ChunkValue α} (hvalue : value.Storable) :
    ofJson? value.toJson = some value := by
  cases value with
  | plain value =>
    have hread : (Json.ofScalar value).scalar? = some value := hvalue
    rw [toJson]
    rcases Json.ofScalar_cases value with ⟨literal, -, hwritten⟩ | hwritten
    · rw [hwritten] at hread ⊢
      rw [ofJson?, hread]
      · rfl
      · rintro _ _ ⟨⟩
    · rw [hwritten] at hread
      cases hread
  | corrected value correction =>
    have hread : (Json.ofScalar value).scalar? = some value := hvalue.1
    have hreadCorrection : (Json.ofScalar correction).scalar? = some correction := hvalue.2
    rw [toJson, ofJson?, hread, hreadCorrection]
    rfl

end ChunkValue

namespace ChunkResult

/-- A chunk result whose numbers are read back. -/
def Storable : ChunkResult α → Prop
  | .single value => value.Storable
  | .split values => ∀ value ∈ values, value.Storable

/-- The JSON value of a chunk result is well-formed. -/
theorem wellFormed_toJson (result : ChunkResult α) : result.toJson.WellFormed := by
  cases result with
  | single value => exact value.wellFormed_toJson
  | split values =>
    apply Json.wellFormed_ofMembers
    intro member hmember
    rw [List.mem_singleton] at hmember
    subst hmember
    apply Json.WellFormed.array
    intro item hitem
    obtain ⟨value, -, rfl⟩ := List.mem_map.mp hitem
    exact value.wellFormed_toJson

/-- The value of a number that is read back is settled at any depth. -/
theorem settled_ofScalar {value : α} (hvalue : Json.RoundTrips value) (limit : ℕ) :
    settled α limit (Json.ofScalar value) = true := by
  have hread : (Json.ofScalar value).scalar? = some value := hvalue
  rcases Json.ofScalar_cases value with ⟨literal, -, hwritten⟩ | hwritten
  · rw [hwritten] at hread ⊢
    rw [settled, hread]
    rfl
  · rw [hwritten, settled]

/-- Items that are all settled make a settled list. -/
theorem settledItems_eq_true {limit : ℕ} {items : List Json}
    (hitems : ∀ item ∈ items, settled α limit item = true) : settledItems α limit items = true := by
  induction items with
  | nil => rw [settledItems]
  | cons item items ih =>
    rw [settledItems, hitems item (List.mem_cons_self ..),
      ih fun other hother => hitems other (List.mem_cons_of_mem _ hother)]
    rfl

/-- The value of a storable chunk value is settled; a pair is one level deep. -/
theorem settled_value {value : ChunkValue α} (hvalue : value.Storable) (limit : ℕ) :
    settled α (limit + 1) value.toJson = true := by
  cases value with
  | plain value => exact settled_ofScalar hvalue _
  | corrected value correction =>
    have hitems : settledItems α limit [Json.ofScalar value, Json.ofScalar correction] = true := by
      apply settledItems_eq_true
      intro item hitem
      rcases List.mem_pair.mp hitem with rfl | rfl
      · exact settled_ofScalar hvalue.1 _
      · exact settled_ofScalar hvalue.2 _
    rw [ChunkValue.toJson, settled, Nat.add_sub_cancel, hitems]
    simp

/-- The value of a storable result is settled; regions take three levels. -/
theorem settled_toJson {result : ChunkResult α} (hresult : result.Storable) (limit : ℕ) :
    settled α (limit + 3) result.toJson = true := by
  cases result with
  | single value => exact settled_value hresult _
  | split values =>
    have hitems : settledItems α (limit + 1) (values.map ChunkValue.toJson) = true := by
      apply settledItems_eq_true
      intro item hitem
      obtain ⟨value, hvalue, rfl⟩ := List.mem_map.mp hitem
      exact settled_value (hresult value hvalue) _
    simp [toJson, Json.ofMembers, settled, settledMembers, hitems, Json.unescape?_escape]

/-- A result for regions is no chunk value. -/
theorem ofJson?_object (members : List (List Char × Json)) :
    (ChunkValue.ofJson? (.object members) : Option (ChunkValue α)) = none := by
  rw [ChunkValue.ofJson?]
  · rfl
  · rintro _ _ ⟨⟩

/-- A result for regions is read value by value. -/
theorem splitsOfJson?_split (values : List (ChunkValue α)) :
    (splitsOfJson? (toJson (.split values)) : Option (List (ChunkValue α))) =
      Json.list? ChunkValue.ofJson? (.array (values.map ChunkValue.toJson)) := by
  have hfields := Json.fields?_ofMembers [("splits", Json.array (values.map ChunkValue.toJson))]
    (by simp)
  rw [toJson]
  rw [Json.ofMembers] at hfields ⊢
  rw [splitsOfJson?]
  simp only [List.map_cons, List.map_nil] at hfields ⊢
  rw [hfields]
  rfl

/-- A storable chunk result is read back, three levels deep or more. -/
theorem ofJson?_toJson {result : ChunkResult α} (hresult : result.Storable) (limit : ℕ) :
    ofJson? (limit + 3) result.toJson = some result := by
  rw [ofJson?, if_pos (settled_toJson hresult limit)]
  cases result with
  | single value => rw [toJson, ChunkValue.ofJson?_toJson hresult]
  | split values =>
    have hnone : (ChunkValue.ofJson? (toJson (.split values)) : Option (ChunkValue α)) = none :=
      ofJson?_object _
    have hlist : Json.list? ChunkValue.ofJson? (.array (values.map ChunkValue.toJson)) = some values :=
      Json.list?_map fun value hvalue => ChunkValue.ofJson?_toJson (hresult value hvalue)
    rw [hnone, splitsOfJson?_split, hlist]
    rfl

end ChunkResult

namespace CacheRecord

/-- A record that can be stored: its numbers are read back, and so is its time. -/
structure Storable (record : CacheRecord α) : Prop where
  results : ∀ result ∈ record.results, result.Storable
  computedAt : ∀ time ∈ record.computedAt, time.Valid

/-- The JSON value of a record is well-formed. -/
theorem wellFormed_toJson (record : CacheRecord α) : record.toJson.WellFormed := by
  apply Json.wellFormed_ofMembers
  intro member hmember
  simp only [List.mem_cons, List.not_mem_nil, or_false] at hmember
  rcases hmember with rfl | rfl | rfl
  · exact Json.wellFormed_ofText _
  · cases record.computedAt with
    | none => exact .null
    | some time => exact Json.wellFormed_ofText _
  · apply Json.WellFormed.array
    intro item hitem
    obtain ⟨result, -, rfl⟩ := List.mem_map.mp hitem
    exact result.wellFormed_toJson

/-- A record is read result by result, if its time is read back. -/
theorem ofJson?_toJson_of_valid {record : CacheRecord α} (hvalid : ∀ time ∈ record.computedAt, time.Valid) :
    (ofJson? record.toJson : Option (CacheRecord α)) =
      (Json.list? (ChunkResult.ofJson? (ChunkResult.maxDepth - 2))
        (.array (record.results.map ChunkResult.toJson))).map fun results =>
          ⟨record.key, record.computedAt, results⟩ := by
  obtain ⟨key, computedAt, results⟩ := record
  have htime : Json.optional? (fun value => value.text?.bind Instant.read?)
      ((computedAt.map fun time => Json.ofText time.text).getD .null) = some computedAt := by
    cases computedAt with
    | none => rfl
    | some time =>
      have hread := Instant.read?_text (hvalid time rfl)
      rw [Option.map_some, Option.getD_some, Json.optional?, Json.text?_ofText, Option.bind_some, hread]
      · rfl
      · rintro ⟨⟩
  have hfields := Json.fields?_ofMembers
    [("key", Json.ofText key),
      ("computed_at", (computedAt.map fun time => Json.ofText time.text).getD .null),
      ("results", .array (results.map ChunkResult.toJson))] (by simp)
  simp only [List.map_cons, List.map_nil] at hfields
  rw [ofJson?, toJson, hfields]
  dsimp only [Option.bind_eq_bind, Option.bind_some, Json.defaulting?, Json.required?]
  rw [Json.text?_ofText, htime]
  cases (Json.list? (ChunkResult.ofJson? (ChunkResult.maxDepth - 2))
      (.array (results.map ChunkResult.toJson)) : Option (List (ChunkResult α))) with
  | none => rfl
  | some results => rfl

/-- A storable record is read back from its JSON value. -/
theorem ofJson?_toJson {record : CacheRecord α} (hrecord : record.Storable) :
    ofJson? record.toJson = some record := by
  have hresults : Json.list? (ChunkResult.ofJson? (ChunkResult.maxDepth - 2))
      (.array (record.results.map ChunkResult.toJson)) = some record.results :=
    Json.list?_map fun result hresult =>
      ChunkResult.ofJson?_toJson (hrecord.results result hresult) 122
  rw [ofJson?_toJson_of_valid hrecord.computedAt, hresults, Option.map_some]

/-- A storable record is read back from its text. -/
theorem ofText?_text {record : CacheRecord α} (hrecord : record.Storable) :
    ofText? record.text = some record := by
  rw [ofText?, text, record.wellFormed_toJson.parse?_render, Option.bind_some, ofJson?_toJson hrecord]

end CacheRecord

end PrivateFootage
