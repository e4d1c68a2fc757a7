import Mathlib
import PrivateFootage.Proofs.Privacy.Calibration
import PrivateFootage.Proofs.Query.Memo

/-!
# Noise that covers every measured stay

The noise of a query is calibrated to the longest stay in the file of its video. Since the scale never
falls as stays get longer, it is enough for every object listed there, and no more than the longest one
needs. Once measured, the longest stay is kept, so the same holds for every later call, in either unit
and whatever has become of the file.
-/

namespace PrivateFootage

/-! ### The longest stay -/

/-- A file holds a JSON list of stays. -/
def HoldsStays (store : Store) (path : String) (stays : List ℚ) : Prop :=
  ∃ content, store.readText path = .ok content ∧
    (Json.parse? content).bind (Json.list? Json.scalar?) = some stays

/-- The longest of some stays is one of them and bounds them all. -/
theorem isGreatest_longestStay {stays : List ℚ} {longest : ℚ}
    (hlongest : longestStay? stays = some longest) : IsGreatest {stay | stay ∈ stays} longest := by
  cases stays with
  | nil => cases hlongest
  | cons first rest =>
    rw [longestStay?, Exact.foldl_larger, Option.some.injEq] at hlongest
    rw [← hlongest]
    exact Exact.isGreatest_foldl_max first rest

/-- There is a longest among some stays. -/
theorem exists_longestStay {stays : List ℚ} (hstays : stays ≠ []) :
    ∃ longest, longestStay? stays = some longest := by
  cases stays with
  | nil => exact absurd rfl hstays
  | cons first rest => exact ⟨_, rfl⟩

/-- Reading the longest stay from a file with stays succeeds if there are any. -/
theorem loadLongestStay_eq_ok_iff {store : Store} {path : String} {stays : List ℚ} {longest : ℚ}
    (hholds : HoldsStays store path stays) :
    loadLongestStay store path = .ok longest ↔ longestStay? stays = some longest := by
  obtain ⟨content, hcontent, hstays⟩ := hholds
  have hread : (store.readText path).mapError (FileFault.toError path) = .ok content :=
    Outcome.mapError_eq_ok.mpr hcontent
  rw [loadLongestStay, hread, Outcome.bind_eq_ok]
  simp only [Except.ok.injEq, exists_eq_left', hstays]
  cases longestStay? stays <;> simp [Outcome.data]

/-! ### What a specification asks of its noise -/

/-- The noise scale covers the stays: it is enough for each that is not negative, and exactly what one
of them needs. -/
structure CoversStays (spec : QuerySpec ℚ) (unit : NoiseUnit) (stays : List ℚ) (scale : ℚ) : Prop where
  covers : ∀ stay ∈ stays, 0 ≤ stay → ∃ own, spec.noiseScale stay unit = .ok own ∧ own ≤ scale
  attained : ∃ stay ∈ stays, spec.noiseScale stay unit = .ok scale

namespace QuerySpec

/-- The same query with other privacy parameters. -/
def withPrivacy (spec : QuerySpec ℚ) (params : PrivacyParams ℚ) : QuerySpec ℚ :=
  { spec with privacy := some params }

/-- How the noise scale for a given stay depends on the stay and on the privacy parameters. -/
structure MonotoneNoise (spec : QuerySpec ℚ) (params : PrivacyParams ℚ) : Prop where
  defined_iff : ∀ stay unit, (∃ scale, spec.noiseScale stay unit = .ok scale) ↔ 0 ≤ stay
  stay_mono : ∀ shorter longer unit scale, shorter ≤ longer → spec.noiseScale shorter unit = .ok scale →
    ∃ larger, spec.noiseScale longer unit = .ok larger ∧ scale ≤ larger
  segments_mono : ∀ segments stay unit scale, params.segments ≤ segments →
    spec.noiseScale stay unit = .ok scale →
      ∃ larger, (spec.withPrivacy { params with segments }).noiseScale stay unit = .ok larger ∧
        scale ≤ larger
  epsilon_anti : ∀ epsilon stay unit scale, params.epsilon ≤ epsilon →
    spec.noiseScale stay unit = .ok scale →
      ∃ smaller, (spec.withPrivacy { params with epsilon }).noiseScale stay unit = .ok smaller ∧
        smaller ≤ scale

/-- A specification of a sum or a mean with sound sizes and privacy parameters. -/
structure Calibrates (spec : QuerySpec ℚ) (params : PrivacyParams ℚ) : Prop where
  privacy_eq : spec.privacy = some params
  function_eq : spec.function = .sum ∨ spec.function = .mean
  framesPerChunk_pos : 0 < spec.framesPerChunk
  chunksPerWindow_pos : 0 < spec.chunksPerWindow
  segments_pos : 0 < params.segments
  epsilon_pos : 0 < params.epsilon
  lowest_le_highest : params.lowest ≤ params.highest

variable {spec : QuerySpec ℚ} {params changed : PrivacyParams ℚ} {stay longer scale : ℚ}
  {unit : NoiseUnit} {stays : List ℚ}

/-- The noise scale for a given stay, in closed form. -/
theorem Calibrates.noiseScale_eq_ok_iff (hspec : spec.Calibrates params) :
    spec.noiseScale stay unit = .ok scale ↔ 0 ≤ stay ∧
      calibratedScale params stay spec.framesPerChunk spec.chunksPerWindow spec.function unit = scale := by
  rw [QuerySpec.noiseScale, hspec.privacy_eq]
  exact PrivateFootage.noiseScale_eq_ok_iff hspec.segments_pos hspec.framesPerChunk_pos
    hspec.chunksPerWindow_pos hspec.function_eq

/-- Other segments and another budget leave a specification sound. -/
theorem Calibrates.withPrivacy (hspec : spec.Calibrates params) (hlower : changed.lower = params.lower)
    (hupper : changed.upper = params.upper) (hsegments : 0 < changed.segments)
    (hepsilon : 0 < changed.epsilon) : (spec.withPrivacy changed).Calibrates changed := by
  refine ⟨rfl, hspec.function_eq, hspec.framesPerChunk_pos, hspec.chunksPerWindow_pos, hsegments,
    hepsilon, ?_⟩
  rw [PrivacyParams.lowest, PrivacyParams.highest, hlower, hupper]
  exact hspec.lowest_le_highest

/-- A longer stay, more segments and a smaller budget need no less noise. -/
theorem Calibrates.exists_le (hspec : spec.Calibrates params) (hlower : changed.lower = params.lower)
    (hupper : changed.upper = params.upper) (hsegments : params.segments ≤ changed.segments)
    (hpos : 0 < changed.epsilon) (hepsilon : changed.epsilon ≤ params.epsilon) (hstay : stay ≤ longer)
    (hscale : spec.noiseScale stay unit = .ok scale) :
    ∃ larger, (spec.withPrivacy changed).noiseScale longer unit = .ok larger ∧ scale ≤ larger := by
  have hother := hspec.withPrivacy hlower hupper (hspec.segments_pos.trans_le hsegments) hpos
  obtain ⟨hnonneg, rfl⟩ := hspec.noiseScale_eq_ok_iff.mp hscale
  exact ⟨_, hother.noiseScale_eq_ok_iff.mpr ⟨hnonneg.trans hstay, rfl⟩,
    calibratedScale_le hspec.lowest_le_highest hlower hupper hstay hsegments hpos hepsilon⟩

/-- A specification is the one with its own privacy parameters. -/
theorem Calibrates.withPrivacy_self (hspec : spec.Calibrates params) : spec.withPrivacy params = spec := by
  rw [QuerySpec.withPrivacy, ← hspec.privacy_eq]

/-- A longer stay needs no less noise. -/
theorem Calibrates.stay_mono (hspec : spec.Calibrates params) (hstay : stay ≤ longer)
    (hscale : spec.noiseScale stay unit = .ok scale) :
    ∃ larger, spec.noiseScale longer unit = .ok larger ∧ scale ≤ larger := by
  have hlarger := hspec.exists_le rfl rfl le_rfl hspec.epsilon_pos le_rfl hstay hscale
  rwa [hspec.withPrivacy_self] at hlarger

/-- How the noise of a sound specification depends on the stay, the segments and the budget. -/
theorem Calibrates.monotoneNoise (hspec : spec.Calibrates params) : spec.MonotoneNoise params where
  defined_iff stay unit := by simp [hspec.noiseScale_eq_ok_iff]
  stay_mono _ _ _ _ hle hscale := hspec.stay_mono hle hscale
  segments_mono _ _ _ _ hle hscale :=
    hspec.exists_le rfl rfl hle hspec.epsilon_pos le_rfl le_rfl hscale
  epsilon_anti epsilon stay unit scale hle hscale := by
    have hother : (spec.withPrivacy { params with epsilon }).Calibrates { params with epsilon } :=
      hspec.withPrivacy rfl rfl hspec.segments_pos (hspec.epsilon_pos.trans_le hle)
    obtain ⟨hnonneg, rfl⟩ := hspec.noiseScale_eq_ok_iff.mp hscale
    exact ⟨_, hother.noiseScale_eq_ok_iff.mpr ⟨hnonneg, rfl⟩,
      calibratedScale_le hother.lowest_le_highest rfl rfl le_rfl le_rfl hspec.epsilon_pos hle⟩

/-- The noise scale of the longest stay covers all of them. -/
theorem Calibrates.coversStays (hspec : spec.Calibrates params)
    (hlongest : IsGreatest {stay | stay ∈ stays} longer)
    (hscale : spec.noiseScale longer unit = .ok scale) : CoversStays spec unit stays scale := by
  refine ⟨fun stay hstay hnonneg => ?_, longer, hlongest.1, hscale⟩
  obtain ⟨own, hown⟩ := (hspec.monotoneNoise.defined_iff stay unit).mpr hnonneg
  obtain ⟨larger, hlarger, hle⟩ := hspec.stay_mono (hlongest.2 hstay) hown
  rw [hscale, Except.ok.injEq] at hlarger
  exact ⟨own, hown, hlarger ▸ hle⟩

/-- The longest stay has a noise scale if there is a stay that is not negative. -/
theorem Calibrates.exists_scale_iff (hspec : spec.Calibrates params) :
    (∃ scale longest, longestStay? stays = some longest ∧ spec.noiseScale longest unit = .ok scale) ↔
      ∃ stay ∈ stays, 0 ≤ stay := by
  have hdefined := hspec.monotoneNoise.defined_iff
  constructor
  · rintro ⟨scale, longest, hlongest, hscale⟩
    exact ⟨longest, (isGreatest_longestStay hlongest).1, (hdefined longest unit).mp ⟨scale, hscale⟩⟩
  · rintro ⟨stay, hstay, hnonneg⟩
    obtain ⟨longest, hlongest⟩ := exists_longestStay (List.ne_nil_of_mem hstay)
    have hle := (isGreatest_longestStay hlongest).2 hstay
    obtain ⟨scale, hscale⟩ := (hdefined longest unit).mpr (hnonneg.trans hle)
    exact ⟨scale, longest, hlongest, hscale⟩

end QuerySpec

/-! ### Queries -/

namespace Query

variable {query : Query ℚ} {config : Config} {spec : QuerySpec ℚ} {aggregator : Aggregator ℚ}
  {params : PrivacyParams ℚ} {store : Store} {path : String} {stays : List ℚ} {longest scale : ℚ}
  {unit : NoiseUnit}

/-- An accepted query of a sum or a mean is sound. -/
theorem calibrates_of_ofSpec (hquery : ofSpec config spec aggregator = .ok query)
    (hprivacy : spec.privacy = some params)
    (hfunction : spec.function = .sum ∨ spec.function = .mean) : spec.Calibrates params := by
  obtain ⟨chunks, hplan, -⟩ := ofSpec_eq_ok_iff.mp hquery
  obtain ⟨hframes, hwindow, -, hvalid, -⟩ := plan_eq_ok hplan
  rw [QuerySpec.checkPrivacy, hprivacy] at hvalid
  obtain ⟨haccepted, -⟩ := PrivacyParams.accepted_of_validate hvalid
  exact ⟨hprivacy, hfunction, hframes, hwindow, haccepted.segments_pos, haccepted.epsilon_pos,
    haccepted.lowest_le_highest⟩

/-- A query that has not measured the longest stay finds it in its file. -/
theorem ensurePersistence_eq_ok_iff (hnone : query.persistence = none)
    (hpath : persistencePath query.config query.spec.video query.spec.rendition = .ok path)
    (hholds : HoldsStays store path stays) :
    (query.ensurePersistence store).1 = .ok longest ↔ longestStay? stays = some longest := by
  have hloaded : (do
      let path ← persistencePath query.config query.spec.video query.spec.rendition
      loadLongestStay store path) = (loadLongestStay store path : Outcome ℚ) := by
    rw [hpath]
    rfl
  rw [← loadLongestStay_eq_ok_iff hholds, ensurePersistence, hnone]
  dsimp only
  rw [hloaded]
  cases (loadLongestStay store path : Outcome ℚ) <;> simp

/-- The noise scale of a query is that of the longest stay that it obtains. -/
theorem noiseScale_fst_eq_ok_iff :
    (query.noiseScale store unit).1 = .ok scale ↔
      ∃ longest, (query.ensurePersistence store).1 = .ok longest ∧
        query.spec.noiseScale longest unit = .ok scale := by
  rw [noiseScale]
  cases hobtain : query.ensurePersistence store with
  | mk outcome next =>
    cases outcome with
    | error error => simp
    | ok longest =>
      have hfirst : (query.ensurePersistence store).1 = .ok longest := by rw [hobtain]
      have hnext := ensurePersistence_keeps hfirst
      rw [hobtain] at hnext
      change next = query.keepingStay longest at hnext
      simp [hnext, keepingStay]

/-- The noise scale of a query that has measured nothing yet is that of the longest stay in its file. -/
theorem noiseScale_fresh_eq_ok_iff (hnone : query.persistence = none)
    (hpath : persistencePath query.config query.spec.video query.spec.rendition = .ok path)
    (hholds : HoldsStays store path stays) :
    (query.noiseScale store unit).1 = .ok scale ↔
      ∃ longest, longestStay? stays = some longest ∧ query.spec.noiseScale longest unit = .ok scale := by
  simp only [noiseScale_fst_eq_ok_iff, ensurePersistence_eq_ok_iff hnone hpath hholds]

/-- A query that has obtained the longest stay answers every later call with it. -/
theorem noiseScale_of_obtained (hobtain : (query.ensurePersistence store).1 = .ok longest)
    (unit : NoiseUnit) (later : List Call) (laterStore : Store) (laterUnit : NoiseUnit) :
    (((query.noiseScale store unit).2.after later).noiseScale laterStore laterUnit).1 =
      query.spec.noiseScale longest laterUnit := by
  have hextends := extends_after (query.keepingStay longest) later
  have hrelies := reliesOnPersistence (hextends.persistence_eq longest rfl)
  rw [noiseScale_next, ensurePersistence_keeps hobtain, hrelies.noiseScale_eq, hextends.spec_eq]
  rfl

/-- An accepted query of a sum or a mean with privacy parameters is calibrated to its file of stays. It
finds a noise scale if the file lists a stay that is not negative, and the scale covers every stay listed,
as do those of all later calls. The scale for a given stay rises with the stay and with the segments and
falls with the budget. -/
theorem noiseScale_covers_stays (hquery : ofSpec config spec aggregator = .ok query)
    (hprivacy : spec.privacy = some params)
    (hfunction : spec.function = .sum ∨ spec.function = .mean) :
    (∀ (store : Store) (path : String) (stays : List ℚ) (unit : NoiseUnit),
      persistencePath config spec.video spec.rendition = .ok path → HoldsStays store path stays →
        ((∃ scale, (query.noiseScale store unit).1 = .ok scale) ↔ ∃ stay ∈ stays, 0 ≤ stay) ∧
        ∀ scale, (query.noiseScale store unit).1 = .ok scale →
          CoversStays spec unit stays scale ∧
          ∀ later laterStore laterUnit, ∃ laterScale,
            (((query.noiseScale store unit).2.after later).noiseScale laterStore laterUnit).1 =
                .ok laterScale ∧
              CoversStays spec laterUnit stays laterScale) ∧
      spec.MonotoneNoise params := by
  have hspec := calibrates_of_ofSpec hquery hprivacy hfunction
  obtain ⟨chunks, -, hfresh⟩ := ofSpec_eq_ok_iff.mp hquery
  have hnone : query.persistence = none := by rw [hfresh]
  obtain rfl : query.spec = spec := by rw [hfresh]
  obtain rfl : query.config = config := by rw [hfresh]
  refine ⟨fun store path stays unit hpath hholds => ?_, hspec.monotoneNoise⟩
  simp only [noiseScale_fresh_eq_ok_iff hnone hpath hholds]
  refine ⟨hspec.exists_scale_iff, ?_⟩
  rintro scale ⟨longest, hlongest, hscale⟩
  have hgreatest := isGreatest_longestStay hlongest
  refine ⟨hspec.coversStays hgreatest hscale, fun later laterStore laterUnit => ?_⟩
  have hnonneg := (hspec.monotoneNoise.defined_iff longest unit).mp ⟨scale, hscale⟩
  obtain ⟨laterScale, hlater⟩ := (hspec.monotoneNoise.defined_iff longest laterUnit).mpr hnonneg
  rw [noiseScale_of_obtained ((ensurePersistence_eq_ok_iff hnone hpath hholds).mpr hlongest)]
  exact ⟨laterScale, hlater, hspec.coversStays hgreatest hlater⟩

/-- Stays on the street, one of them entered by mistake. -/
def strolls : List ℚ := [12, 480, 67 / 2, -4]

/-- A store with the stays on the street. -/
def strollStore : Store where
  entries :=
    [(["data"], .directory), (["data", "persistence_distributions"], .directory),
      (["data", "persistence_distributions", "street"], .directory),
      (["data", "persistence_distributions", "street", "street10_orig.json"],
        .file "[12, 480, 33.5, -4]".toUTF8)]

/-- The privacy parameters of a query on the street. -/
def strollParams : PrivacyParams ℚ := { epsilon := 2, lower := .scene 0, upper := .scene 10, segments := 3 }

/-- The mean over an hour of the street in chunks of a minute. -/
def strollSpec : QuerySpec ℚ where
  video := "street"
  rendition := .unmasked
  framesPerChunk := 60
  chunksPerWindow := 60
  function := .mean
  privacy := some strollParams

/-- The accepted query for that mean. -/
def strollQuery : Query ℚ := ⟨strollSpec, .zero ℚ, streetHours [0], 60, none, none⟩

/-- The longest stroll touches nine chunks in each of three segments. -/
theorem noiseScale_covers_stays_strolls :
    ofSpec (streetHours [0]) strollSpec (.zero ℚ) = .ok strollQuery ∧
      HoldsStays strollStore "/data/persistence_distributions/street/street10_orig.json" strolls ∧
      (strollQuery.noiseScale strollStore .chunks).1 = .ok (3 / 80) ∧
      CoversStays strollSpec .chunks strolls (3 / 80) ∧ strollSpec.MonotoneNoise strollParams := by
  have hquery : ofSpec (streetHours [0]) strollSpec (.zero ℚ) = .ok strollQuery := rfl
  have hholds : HoldsStays strollStore "/data/persistence_distributions/street/street10_orig.json"
      strolls := ⟨"[12, 480, 33.5, -4]", rfl, by decide +kernel⟩
  have hscale : (strollQuery.noiseScale strollStore .chunks).1 = .ok (3 / 80) := by decide +kernel
  obtain ⟨hcovers, hmonotone⟩ := noiseScale_covers_stays hquery rfl (.inr rfl)
  exact ⟨hquery, hholds, hscale, ((hcovers _ _ _ .chunks rfl hholds).2 _ hscale).1, hmonotone⟩

end Query

end PrivateFootage
