import Mathlib
import PrivateFootage.Proofs.Footage.Reading
import PrivateFootage.Proofs.Privacy.Params
import PrivateFootage.Query

/-!
# What an accepted query guarantees

The checks made when a query is accepted, read backwards: positive sizes, a rendition that has files,
for regions a positive number of them and bounds that fit it, and a number of whole chunks that is
positive and comes out even. Nothing is said about the rates: whether the video can be sampled at all
shows only when its footage is opened.
-/

namespace PrivateFootage

namespace Query

variable {α : Type}

/-- What the checks of a new query establish. -/
structure Accepted (query : Query α) : Prop where
  /-- Nothing has been obtained yet. -/
  results_eq : query.results = none
  framesPerChunk_pos : 0 < query.spec.framesPerChunk
  chunksPerWindow_pos : 0 < query.spec.chunksPerWindow
  rendition_ne : query.spec.rendition ≠ .reserved
  /-- A query on regions says how many there are. -/
  regions_count : query.spec.rendition = .maskedRegions → ∃ params count,
    query.spec.privacy = some params ∧ params.splitCount = some count ∧ 0 < count
  /-- A bound for each region has as many entries as there are regions. -/
  bound_count : ∀ params values count, query.spec.privacy = some params →
    params.lower = .perSplit values ∨ params.upper = .perSplit values →
      params.splitCount = some count → values.length = count
  /-- The whole chunks in the recorded hours. -/
  chunkCount_eq : ∃ hours, query.config.hours query.spec.video = .ok hours ∧
    query.chunkCount =
      hours.length * secondsPerHour * query.config.analysisRate.toNat / query.spec.framesPerChunk
  chunkCount_pos : 0 < query.chunkCount
  windows_even : query.spec.chunksPerWindow ∣ query.chunkCount

/-- The regions that a query reads, or the whole scene. -/
def regions (query : Query α) : List (Option ℕ) :=
  match query.spec.rendition with
  | .maskedRegions =>
    (List.range ((query.spec.privacy.bind PrivacyParams.splitCount).getD 0)).map some
  | .unmasked | .masked | .reserved => [none]

/-- The footage that a query reads. -/
def footage (query : Query α) : Outcome Footage :=
  Footage.ofConfig query.config query.spec.video query.spec.rendition query.spec.framesPerChunk

/-- What the footage of an accepted query has to do with the query. -/
structure Opens (query : Query α) (footage : Footage) : Prop where
  framesPerChunk_eq : footage.framesPerChunk = query.spec.framesPerChunk
  frameCount_eq : query.config.analysisFrames query.spec.video = .ok footage.frameCount
  chunkCount_eq : query.chunkCount = footage.frameCount / query.spec.framesPerChunk
  frameCount_pos : 0 < footage.frameCount
  hasRegion : ∀ region ∈ query.regions, footage.HasRegion region

variable {query : Query α}

/-- A query on regions reads as many as its privacy parameters say. -/
theorem regions_eq {params : PrivacyParams α} {count : ℕ}
    (hrendition : query.spec.rendition = .maskedRegions) (hparams : query.spec.privacy = some params)
    (hcount : params.splitCount = some count) : query.regions = (List.range count).map some := by
  simp only [regions, hrendition, hparams, Option.bind_some, hcount, Option.getD_some]

/-- What opening the footage of a query asks for and gives. -/
theorem footage_eq_ok {footage : Footage} (hfootage : query.footage = .ok footage) :
    ∃ hours decimation, query.config.hours query.spec.video = .ok hours ∧
      query.config.decimation = .ok decimation ∧
      footage = ⟨query.config.featuresDirectory, query.config.maskedFeaturesDirectory,
        query.spec.video, query.spec.rendition, hours, decimation, query.spec.framesPerChunk⟩ :=
  Footage.ofConfig_eq_ok hfootage

/-- The footage of an accepted query has as many frames as the query expects, and files for every
region that it reads. -/
theorem Accepted.opens (haccepted : query.Accepted) {footage : Footage}
    (hfootage : query.footage = .ok footage) : query.Opens footage := by
  have hframes : query.config.analysisFrames query.spec.video = .ok footage.frameCount :=
    Footage.analysisFrames_eq_ok hfootage
  have hcount : query.chunkCount = footage.frameCount / query.spec.framesPerChunk := by
    obtain ⟨hours, hhours, hchunks⟩ := haccepted.chunkCount_eq
    have hcounted := hframes
    rw [Config.analysisFrames, hhours] at hcounted
    rw [hchunks, ← Except.ok.inj hcounted]
  obtain ⟨hours, decimation, -, -, rfl⟩ := footage_eq_ok hfootage
  refine ⟨rfl, hframes, hcount, ?_, ?_⟩
  · apply Nat.pos_of_ne_zero
    intro hzero
    have hpos := haccepted.chunkCount_pos
    rw [hcount, hzero, Nat.zero_div] at hpos
    exact lt_irrefl _ hpos
  · intro region hregion
    unfold regions at hregion
    cases hrendition : query.spec.rendition with
    | unmasked =>
      rw [hrendition] at hregion
      rw [List.mem_singleton.mp hregion]
      exact .inl rfl
    | masked =>
      rw [hrendition] at hregion
      rw [List.mem_singleton.mp hregion]
      exact .inr rfl
    | maskedRegions =>
      rw [hrendition] at hregion
      obtain ⟨split, -, rfl⟩ := List.mem_map.mp hregion
      rfl
    | reserved => exact absurd hrendition haccepted.rendition_ne

variable [Scalar α] {config : Config} {spec : QuerySpec α} {aggregator : Aggregator α}

/-- What the checks of a specification ask for, one by one. -/
theorem plan_eq_ok {chunks : ℕ} (hplan : spec.plan config = .ok chunks) :
    0 < spec.framesPerChunk ∧ 0 < spec.chunksPerWindow ∧ spec.checkRendition = .ok () ∧
      spec.checkPrivacy = .ok () ∧
      ∃ hours, config.hours spec.video = .ok hours ∧
        chunks = hours.length * secondsPerHour * config.analysisRate.toNat / spec.framesPerChunk ∧
        0 < chunks ∧ spec.chunksPerWindow ∣ chunks := by
  unfold QuerySpec.plan at hplan
  dsimp only at hplan
  rw [Outcome.guard_eq_ok, Outcome.guard_eq_ok] at hplan
  obtain ⟨hframes, hwindow, hplan⟩ := hplan
  obtain ⟨_, hrendition, hplan⟩ := Outcome.bind_eq_ok.mp hplan
  obtain ⟨_, hprivacy, hplan⟩ := Outcome.bind_eq_ok.mp hplan
  obtain ⟨frames, hanalysis, hplan⟩ := Outcome.bind_eq_ok.mp hplan
  obtain ⟨hours, hhours, hanalysis⟩ := Outcome.bind_eq_ok.mp hanalysis
  rw [Outcome.guard_eq_ok, Outcome.guard_eq_ok] at hplan
  obtain ⟨hchunks, heven, hplan⟩ := hplan
  rw [Except.ok.injEq] at hanalysis hplan
  subst hanalysis hplan
  exact ⟨Nat.pos_of_ne_zero hframes, Nat.pos_of_ne_zero hwindow, hrendition, hprivacy, hours,
    hhours, rfl, Nat.pos_of_ne_zero hchunks, Nat.dvd_of_mod_eq_zero (not_not.mp heven)⟩

/-- Accepting a query keeps what it was asked and how many whole chunks there are. -/
theorem ofSpec_eq_ok_iff :
    ofSpec config spec aggregator = .ok query ↔
      ∃ chunks, spec.plan config = .ok chunks ∧ query = ⟨spec, aggregator, config, chunks, none, none⟩ := by
  rw [ofSpec, Outcome.bind_eq_ok]
  simp only [Except.ok.injEq, eq_comm]

/-- A query that is accepted has passed its checks. -/
theorem accepted_of_ofSpec (haccepted : ofSpec config spec aggregator = .ok query) :
    query.Accepted := by
  obtain ⟨chunks, hplan, rfl⟩ := ofSpec_eq_ok_iff.mp haccepted
  obtain ⟨hframes, hwindow, hrendition, hprivacy, hours, hhours, hchunks, hpos, heven⟩ :=
    plan_eq_ok hplan
  have hparams : ∀ params, spec.privacy = some params →
      params.validate spec.rendition = .ok () := by
    intro params h
    simpa [QuerySpec.checkPrivacy, h] using hprivacy
  constructor
  · rfl
  · exact hframes
  · exact hwindow
  · intro h
    dsimp only at h
    simp [QuerySpec.checkRendition, h] at hrendition
  · intro h
    dsimp only at h
    cases hsome : spec.privacy with
    | none => simp [QuerySpec.checkRendition, h, hsome, Outcome.setting] at hrendition
    | some params =>
      obtain ⟨-, -, -, -, -, hneeds⟩ := PrivacyParams.checks_of_validate (hparams params hsome)
      rw [h] at hneeds
      obtain ⟨count, hcount, hcountPos⟩ := PrivacyParams.splitCount_of_checkRendition hneeds
      exact ⟨params, count, rfl, hcount, hcountPos⟩
  · intro params values count hsome hbound hcount
    obtain ⟨-, -, hlower, hupper, -⟩ := PrivacyParams.checks_of_validate (hparams params hsome)
    rcases hbound with h | h
    · exact (PrivacyParams.checkBound_eq_ok hlower).2 values count h hcount
    · exact (PrivacyParams.checkBound_eq_ok hupper).2 values count h hcount
  · exact ⟨hours, hhours, hchunks⟩
  · exact hpos
  · exact heven

/-- Hours of a street, recorded and analysed at one frame a second. -/
def streetHours (hours : List UInt32) : Config where
  dataRoot := "/data"
  nativeRate := 1
  analysisRate := 1
  videos := Catalog.ofList [("street", hours)]

/-- One hour of the street in chunks of an hour. -/
def streetFootage (hour : UInt32) (rendition : Rendition) : Footage where
  featuresDirectory := "/data/features"
  maskedFeaturesDirectory := "/data/masked_features"
  video := "street"
  rendition := rendition
  hours := [hour]
  decimation := ⟨1, 1, by decide, by decide⟩
  framesPerChunk := 3600

end Query

end PrivateFootage
