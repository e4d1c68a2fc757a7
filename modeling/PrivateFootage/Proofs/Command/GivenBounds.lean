import Mathlib
import PrivateFootage.Command.Report
import PrivateFootage.Proofs.Query.Windows

/-!
# Bounds given on the command line

The values given for a bound are counted: one value bounds the whole scene, several bound a region
each. A query on regions that are brought into bounds before they are combined needs bounds for each
region. With as many values as regions it has them if there are at least two regions, and then every
region is clipped to the values given in its place. With one region the one value is taken for the
whole scene. The query is accepted and its results are computed, but no windows can be formed.
-/

namespace PrivateFootage.Command

/-- A single value is a bound for the whole scene. -/
theorem boundOfValues_of_single (side : Side) {values : List Float} (hone : values.length = 1) :
    ∃ value, boundOfValues side values = .ok (.scene value) := by
  obtain ⟨value, rfl⟩ := List.length_eq_one_iff.mp hone
  exact ⟨value, rfl⟩

/-- Several values are bounds for each region. -/
theorem boundOfValues_of_several (side : Side) {values : List Float} (hmore : 1 < values.length) :
    boundOfValues side values = .ok (.perSplit values) := by
  cases values with
  | nil => simp at hmore
  | cons first others =>
    cases others with
    | nil => simp at hmore
    | cons second others => rfl

namespace RunArguments

variable {arguments : RunArguments} {config : Config} {query : Query Float} {count : ℕ}

/-- With a number of regions, the parameters hold that number and the bounds that the values give. -/
theorem privacy_of_splits (hsplits : arguments.splits = some count)
    (hgiven : arguments.window.lower ≠ []) {privacy : Option (PrivacyParams Float)}
    (hprivacy : arguments.privacy = .ok privacy) :
    ∃ lower upper combination, boundOfValues .lower arguments.window.lower = .ok lower ∧
      boundOfValues .upper arguments.window.upper = .ok upper ∧
      Combination.lookup arguments.combination = .ok combination ∧
      privacy = some ⟨arguments.window.epsilon, lower, upper, combination, some count,
        arguments.window.segments⟩ := by
  have hsome : ¬(arguments.window.lower.isEmpty && arguments.window.upper.isEmpty) = true := by
    simp [hgiven]
  rw [RunArguments.privacy, if_neg hsome, hsplits] at hprivacy
  obtain ⟨params, hparams, hprivacy⟩ := Outcome.bind_eq_ok.mp hprivacy
  obtain ⟨combination, hcombination, hprivacy⟩ := Outcome.bind_eq_ok.mp hprivacy
  obtain ⟨lower, hlower, hparams⟩ := Outcome.bind_eq_ok.mp hparams
  obtain ⟨upper, hupper, hparams⟩ := Outcome.bind_eq_ok.mp hparams
  rw [Except.ok.injEq] at hparams hprivacy
  subst hparams hprivacy
  exact ⟨lower, upper, combination, hlower, hupper, Outcome.mapError_eq_ok.mp hcombination, rfl⟩

/-- The query asked for has passed its checks. -/
theorem accepted_of_query (hquery : arguments.query config = .ok query) : query.Accepted := by
  obtain ⟨spec, -, haccepted⟩ := Outcome.bind_eq_ok.mp hquery
  exact Query.accepted_of_ofSpec (Outcome.mapError_eq_ok.mp haccepted)

/-- What is accepted as the query on regions that is asked for. -/
theorem ofSpec_of_query (hsource : Rendition.lookup arguments.source = .ok .maskedRegions)
    (hsplits : arguments.splits = some count) (hgiven : arguments.window.lower ≠ [])
    (hquery : arguments.query config = .ok query) :
    ∃ function lower upper combination,
      WindowFunction.lookup arguments.window.function = .ok function ∧
      boundOfValues .lower arguments.window.lower = .ok lower ∧
      boundOfValues .upper arguments.window.upper = .ok upper ∧
      Combination.lookup arguments.combination = .ok combination ∧
      Query.ofSpec config
        { video := arguments.video
          rendition := .maskedRegions
          framesPerChunk := arguments.window.framesPerChunk
          chunksPerWindow := arguments.window.chunksPerWindow
          function
          privacy := some ⟨arguments.window.epsilon, lower, upper, combination, some count,
            arguments.window.segments⟩
          smartAdjust := arguments.smartAdjust } arguments.aggregatorOf = .ok query := by
  obtain ⟨spec, hspec, haccepted⟩ := Outcome.bind_eq_ok.mp hquery
  obtain ⟨rendition, hrendition, hspec⟩ := Outcome.bind_eq_ok.mp hspec
  obtain ⟨function, hfunction, hspec⟩ := Outcome.bind_eq_ok.mp hspec
  obtain ⟨privacy, hprivacy, hspec⟩ := Outcome.bind_eq_ok.mp hspec
  rw [Outcome.mapError_eq_ok] at haccepted hrendition hfunction
  obtain ⟨lower, upper, combination, hlower, hupper, hcombination, rfl⟩ :=
    privacy_of_splits hsplits hgiven hprivacy
  rw [hsource, Except.ok.injEq] at hrendition
  rw [Except.ok.injEq] at hspec
  subst hrendition hspec
  exact ⟨function, lower, upper, combination, hfunction, hlower, hupper, hcombination, haccepted⟩

/-- A report fails with the windows of its query. -/
theorem report_of_windows_error {now : Instant} {store : Store} {error : Error}
    (hquery : arguments.query config = .ok query)
    (hwindows : (query.windows now store arguments.boundsAfterSplit).1 = .error error) :
    (arguments.report config now store).1 = .error (.error error) := by
  rw [report, hquery]
  dsimp only
  rcases hparts : query.windows now store arguments.boundsAfterSplit with ⟨outcome, next, stored⟩
  rw [hparts] at hwindows
  dsimp only at hwindows
  subst hwindows
  rfl

/-- A query on regions is asked for with one lower and one upper value for each of them, to be applied
before regions are combined. If there are several regions, windows are formed of the results computed,
and every region is clipped to the two values in its place. If there is one region, the query has no
windows and no report. -/
theorem windows_in_given_bounds (arguments : RunArguments) (config : Config) (query : Query Float)
    (count : ℕ) (hpos : 1 ≤ count)
    (hsource : Rendition.lookup arguments.source = .ok .maskedRegions)
    (hsplits : arguments.splits = some count) (hlower : arguments.window.lower.length = count)
    (hupper : arguments.window.upper.length = count) (hfirst : arguments.boundsAfterSplit = false)
    (hquery : arguments.query config = .ok query) (now : Instant) (store : Store)
    (results : List (ChunkResult Float)) (hcompute : query.compute store = .ok results)
    (hobtain : (query.ensureResults now store).1 = .ok results) :
    (1 < count → ∃ function combination, ∃ rows : List (List (ChunkValue Float)),
      WindowFunction.lookup arguments.window.function = .ok function ∧
      Combination.lookup arguments.combination = .ok combination ∧
      results.take query.chunkCount = rows.map .split ∧ rows.length = query.chunkCount ∧
      (∀ values ∈ rows, values.length = count) ∧
      (query.windows now store arguments.boundsAfterSplit).1 =
        .ok ((groupsOf arguments.window.chunksPerWindow rows).map fun group =>
          function.reduce (group.map fun values => combination.combine
            (Windowing.clipEach (arguments.window.lower.zip arguments.window.upper)
              (values.map (ChunkValue.shaped arguments.smartAdjust)))))) ∧
    (count = 1 →
      (query.windows now store arguments.boundsAfterSplit).1 =
        .error (.setting (.noBoundForSplit 0)) ∧
      (arguments.report config now store).1 = .error (.error (.setting (.noBoundForSplit 0)))) := by
  have hgiven : arguments.window.lower ≠ [] := List.ne_nil_of_length_pos (hlower ▸ hpos)
  obtain ⟨function, lower, upper, combination, hfunction, hlowerBound, hupperBound, hcombination,
    hspec⟩ := ofSpec_of_query hsource hsplits hgiven hquery
  have haccepted := accepted_of_query hquery
  have hwindows := Query.windows_of_ensureResults hobtain arguments.boundsAfterSplit
  rw [Query.compute_eq, Query.computeWith_eq_ok_iff haccepted] at hcompute
  obtain ⟨recordings, ⟨footage, hfootage, hreads⟩, rfl⟩ := hcompute
  have hopens := haccepted.opens hfootage
  obtain ⟨chunks, -, rfl⟩ := Query.ofSpec_eq_ok_iff.mp hspec
  rw [hfirst] at hwindows
  constructor
  · intro hmore
    rw [boundOfValues_of_several _ (hlower ▸ hmore), Except.ok.injEq] at hlowerBound
    rw [boundOfValues_of_several _ (hupper ▸ hmore), Except.ok.injEq] at hupperBound
    subst hlowerBound hupperBound
    obtain ⟨rows, htake, hlength, hvalues, hformed⟩ :=
      Query.windowsOf_resultsOf_of_perSplit haccepted hopens hreads rfl rfl rfl rfl rfl
    refine ⟨function, combination, rows, hfunction, hcombination, htake, hlength, hvalues, ?_⟩
    rw [hfirst, hwindows, hformed]
    rfl
  · intro hone
    obtain ⟨value, hscene⟩ := boundOfValues_of_single .lower (hlower.trans hone)
    rw [hscene, Except.ok.injEq] at hlowerBound
    subst hlowerBound
    have herror := hwindows.trans (Query.windowsOf_resultsOf_of_sharesBound haccepted hopens hreads
      ⟨rfl, _, rfl, .inl ⟨value, rfl⟩⟩)
    rw [← hfirst] at herror
    exact ⟨herror, report_of_windows_error hquery herror⟩

/-! ### Two regions and one -/

open Query (streetHours streetFootage quietRegions)

/-- An hour of the street as one chunk, in regions with given bounds. -/
def streetRegions (lower upper : List Float) : RunArguments where
  video := "street"
  source := "spatial-hybrid"
  aggregator := .zero
  window := { framesPerChunk := 3600, chunksPerWindow := 1, lower, upper }
  splits := some lower.length

/-- The query for the hour. -/
def regionsQuery (lower upper : Bound Float) (count : ℕ) : Query Float where
  spec :=
    { video := "street"
      rendition := .maskedRegions
      framesPerChunk := 3600
      chunksPerWindow := 1
      function := .sum
      privacy := some ⟨1, lower, upper, .sum, some count, 1⟩ }
  aggregator := .zero Float
  config := streetHours [0]
  chunkCount := 1

/-- An hour without detections. -/
def quietHour : Chunk Float :=
  sampleHour (streetFootage 0 .maskedRegions).decimation.frames []

/-- Nothing was detected in either region. -/
theorem readHour_quietRegions : ∀ split < 2,
    readHour quietRegions ((streetFootage 0 .maskedRegions).file 0 (some split)) =
      .ok ([] : List (Row Float)) := by
  decide +kernel

/-- The results for the hour come from an hour without detections in every region. -/
theorem compute_regionsQuery {lower upper : Bound Float} {count : ℕ}
    (haccepted : (regionsQuery lower upper count).Accepted) (hcount : count ≤ 2) :
    (regionsQuery lower upper count).compute quietRegions =
      .ok ((regionsQuery lower upper count).resultsOf
        ((List.range count).map fun _ => [quietHour])) := by
  have hfootage : Footage.ofConfig (streetHours [0]) "street" .maskedRegions 3600 =
      .ok (streetFootage 0 .maskedRegions) := rfl
  have hsize : (streetFootage 0 .maskedRegions).framesPerChunk =
      (streetFootage 0 .maskedRegions).decimation.analysisPerHour := by
    simp [streetFootage, Decimation.analysisPerHour, secondsPerHour]
  rw [Query.compute_eq, Query.computeWith_eq_ok_iff haccepted]
  refine ⟨_, ⟨_, hfootage, Query.readsRegions_iff.mpr ?_⟩, rfl⟩
  rw [Query.regions_eq rfl rfl rfl, List.forall₂_map_left_iff, List.forall₂_map_right_iff,
    List.forall₂_same]
  intro split hsplit
  rw [List.mem_range] at hsplit
  have hregion : (streetFootage 0 .maskedRegions).HasRegion (some split) := rfl
  have hread := readHour_quietRegions split (by omega)
  exact ⟨Footage.chunks_hour hregion rfl hsize (by decide : 3600 ≤ chunkCapacity) hread, fun _ _ => ⟨_, rfl⟩⟩

/-- Two regions with bounds of their own. -/
def twoRegions : Query Float := regionsQuery (.perSplit [0, 1]) (.perSplit [5, 2]) 2

set_option maxRecDepth 10000 in
/-- Nothing is detected in two regions. The second enters with its lower bound, and the window is
one. -/
theorem windows_in_given_bounds_two_regions :
    ((streetRegions [0, 1] [5, 2]).query (streetHours [0]) = .ok twoRegions ∧
        twoRegions.compute quietRegions = .ok [.split [.plain 0, .plain 0]] ∧
        (twoRegions.ensureResults ⟨0, 0⟩ quietRegions).1 = .ok [.split [.plain 0, .plain 0]]) ∧
      (twoRegions.windows ⟨0, 0⟩ quietRegions false).1 = .ok [1] := by
  have hquery : (streetRegions [0, 1] [5, 2]).query (streetHours [0]) = .ok twoRegions := rfl
  have hcompute : twoRegions.compute quietRegions = .ok [.split [.plain 0, .plain 0]] :=
    compute_regionsQuery (accepted_of_query hquery) le_rfl
  have hload : twoRegions.cache.load quietRegions twoRegions.key =
      .ok (none : Option (List (ChunkResult Float))) := rfl
  have hsave : (twoRegions.cache.save ⟨0, 0⟩ quietRegions twoRegions.key
      [.split [.plain (0 : Float), .plain 0]]).1 = .ok () := rfl
  have hobtain := Query.ensureResults_of_saved rfl hcompute hload hsave
  obtain ⟨hseveral, -⟩ := windows_in_given_bounds (streetRegions [0, 1] [5, 2]) (streetHours [0])
    twoRegions 2 one_le_two rfl rfl rfl rfl rfl hquery ⟨0, 0⟩ quietRegions _ hcompute hobtain
  obtain ⟨function, combination, rows, hfunction, hcombination, htake, -, -, hwindows⟩ :=
    hseveral one_lt_two
  have hrows : [[.plain 0, .plain 0]] = rows :=
    List.map_injective_iff.mpr (fun _ _ => ChunkResult.split.inj) htake
  have hsum : WindowFunction.sum = function := Except.ok.inj hfunction
  have hadded : Combination.sum = combination := Except.ok.inj hcombination
  subst hrows hsum hadded
  exact ⟨⟨hquery, hcompute, hobtain⟩, hwindows.trans rfl⟩

/-- One region, with bounds for the whole scene. -/
def oneRegion : Query Float := regionsQuery (.scene 0) (.scene 5) 1

set_option maxRecDepth 10000 in
/-- With one region the query is accepted and its results are computed and stored, but there is no
window and no report. -/
theorem single_region_without_windows :
    (streetRegions [0] [5]).query (streetHours [0]) = .ok oneRegion ∧
      oneRegion.compute quietRegions = .ok [.split [.plain 0]] ∧
      (oneRegion.ensureResults ⟨0, 0⟩ quietRegions).1 = .ok [.split [.plain 0]] ∧
      (oneRegion.windows ⟨0, 0⟩ quietRegions false).1 = .error (.setting (.noBoundForSplit 0)) ∧
      ((streetRegions [0] [5]).report (streetHours [0]) ⟨0, 0⟩ quietRegions).1 =
        .error (.error (.setting (.noBoundForSplit 0))) := by
  have hquery : (streetRegions [0] [5]).query (streetHours [0]) = .ok oneRegion := rfl
  have hcompute : oneRegion.compute quietRegions = .ok [.split [.plain 0]] :=
    compute_regionsQuery (accepted_of_query hquery) one_le_two
  have hload : oneRegion.cache.load quietRegions oneRegion.key =
      .ok (none : Option (List (ChunkResult Float))) := rfl
  have hsave : (oneRegion.cache.save ⟨0, 0⟩ quietRegions oneRegion.key
      [.split [.plain (0 : Float)]]).1 = .ok () := rfl
  have hobtain := Query.ensureResults_of_saved rfl hcompute hload hsave
  have hformed : oneRegion.windowsOf [.split [.plain 0]] false =
      .error (.setting (.noBoundForSplit 0)) := rfl
  have hwindows := (Query.windows_of_ensureResults hobtain false).trans hformed
  exact ⟨hquery, hcompute, hobtain, hwindows, report_of_windows_error hquery hwindows⟩

end RunArguments

end PrivateFootage.Command
