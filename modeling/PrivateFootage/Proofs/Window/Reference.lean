import Mathlib
import PrivateFootage.Proofs.ExactArithmetic
import PrivateFootage.Proofs.Window.Contribution

/-!
# Windows against a rule for single chunks

What a chunk contributes to its window can be told from that chunk alone. The rule below does so for
every rendition: it has a value for a chunk, or none. Aggregation gathers regions over whole windows
and stops at the first fault, and still it follows the rule: it succeeds exactly if the rule has a
value for every chunk, and a window then reduces the values of its own chunks in order.
-/

namespace PrivateFootage

namespace ChunkResult

variable {α : Type}

/-- The value of a result for the whole scene. -/
def single? : ChunkResult α → Option (ChunkValue α)
  | .single value => some value
  | .split _ => none

/-- The values of a result for regions. -/
def split? : ChunkResult α → Option (List (ChunkValue α))
  | .single _ => none
  | .split values => some values

end ChunkResult

namespace Windowing

variable {α : Type} [Scalar α]

/-- Bring a value into the range of the privacy parameters, if there are any. -/
def inRange (windowing : Windowing α) (value : α) : α :=
  windowing.privacy.elim value fun params => Scalar.clip params.lowest params.highest value

/-- Both bounds have an entry for each of a number of regions. -/
def BoundsEach (params : PrivacyParams α) (count : ℕ) : Prop :=
  ∀ split < count, (params.lower.forSplit? split).isSome ∧ (params.upper.forSplit? split).isSome

instance decidableBoundsEach (params : PrivacyParams α) (count : ℕ) :
    Decidable (BoundsEach params count) :=
  Nat.decidableBallLT count fun split _ =>
    (params.lower.forSplit? split).isSome ∧ (params.upper.forSplit? split).isSome

/-- The entries of both bounds for one region. -/
def boundsOf (params : PrivacyParams α) (split : ℕ) : α × α :=
  ((params.lower.forSplit? split).getD Scalar.undefined,
    (params.upper.forSplit? split).getD Scalar.undefined)

/-- Bring the value of a region into the bounds of that region. -/
def clipRegion (params : PrivacyParams α) (split : ℕ) (value : α) : α :=
  Scalar.clip (boundsOf params split).1 (boundsOf params split).2 value

/-- What a chunk in regions contributes to its window. -/
def regionsReference? (params : PrivacyParams α) (smartAdjust afterSplit : Bool)
    (values : List (ChunkValue α)) : Option α :=
  let shaped := values.map (ChunkValue.shaped smartAdjust)
  if params.splitCount ≠ some values.length then none
  else if afterSplit then
    some (Scalar.clip params.lowest params.highest (params.combination.combine shaped))
  else if BoundsEach params values.length then
    some (params.combination.combine (shaped.mapIdx (clipRegion params)))
  else none

/-- What a chunk contributes to its window, if it can be part of one. -/
def reference? (windowing : Windowing α) (afterSplit : Bool) (result : ChunkResult α) : Option α :=
  match windowing.rendition with
  | .unmasked => result.single?.map ChunkValue.value
  | .masked => result.single?.map fun value => windowing.inRange (value.shaped windowing.smartAdjust)
  | .maskedRegions =>
    windowing.privacy.bind fun params =>
      result.split?.bind (regionsReference? params windowing.smartAdjust afterSplit)
  | .reserved => none

/-! ### Bounds of regions -/

variable {params : PrivacyParams α} {count : ℕ}

/-- The bounds of a region are read exactly if both have an entry for it. -/
theorem splitBounds_eq_ok_iff {split : ℕ} {bounds : α × α} :
    splitBounds params split = .ok bounds ↔
      ((params.lower.forSplit? split).isSome ∧ (params.upper.forSplit? split).isSome) ∧
        boundsOf params split = bounds := by
  unfold splitBounds boundsOf
  cases params.lower.forSplit? split <;> cases params.upper.forSplit? split <;>
    simp [Outcome.setting]

/-- The bounds of all regions are read exactly if both have an entry for each. -/
theorem mapM_splitBounds_iff {bounds : List (α × α)} :
    (List.range count).mapM (splitBounds params) = .ok bounds ↔
      BoundsEach params count ∧ (List.range count).map (boundsOf params) = bounds := by
  rw [Outcome.mapM_eq_ok_iff_of fun _ _ => splitBounds_eq_ok_iff]
  simp [BoundsEach]

/-- Values are clipped side by side with the bounds or each by the number of its region. -/
theorem clipEach_boundsOf {values : List α} (hvalues : values.length = count) :
    clipEach ((List.range count).map (boundsOf params)) values =
      values.mapIdx (clipRegion params) := by
  apply List.ext_getElem
  · simp [clipEach, hvalues]
  · intro split _ _
    simp [clipEach, clipRegion]

/-! ### One window -/

variable {windowing : Windowing α} {afterSplit : Bool} {window : List (ChunkResult α)}

/-- With bounds applied last, a chunk in regions has a value exactly if it has as many regions as the
parameters. -/
theorem regionsReference?_after (hcount : params.splitCount = some count) (smartAdjust : Bool)
    (values : List (ChunkValue α)) :
    regionsReference? params smartAdjust true values =
      if values.length = count then some (combinedThenClipped params smartAdjust values) else none := by
  by_cases hlength : values.length = count
  · simp [regionsReference?, combinedThenClipped, hcount, hlength]
  · simp [regionsReference?, hcount, hlength, Ne.symm hlength]

/-- With bounds applied first, a chunk in regions also needs bounds for each region. -/
theorem regionsReference?_before (hcount : params.splitCount = some count) (smartAdjust : Bool)
    (values : List (ChunkValue α)) :
    regionsReference? params smartAdjust false values =
      if values.length = count ∧ BoundsEach params count then
        some (clippedThenCombined params smartAdjust ((List.range count).map (boundsOf params)) values)
      else none := by
  by_cases hlength : values.length = count
  · have hclip : clipEach ((List.range count).map (boundsOf params))
        (values.map (ChunkValue.shaped smartAdjust)) =
          (values.map (ChunkValue.shaped smartAdjust)).mapIdx (clipRegion params) :=
      clipEach_boundsOf (by rw [List.length_map, hlength])
    simp only [regionsReference?, clippedThenCombined, hcount, hlength, hclip]
    simp
  · simp [regionsReference?, hcount, hlength, Ne.symm hlength]

omit [Scalar α] in
/-- A window of the whole scene is shaped exactly if every chunk has a value for the scene. -/
theorem mapM_singleValue_iff {rendition : Rendition} {shape : ChunkValue α → α} {values : List α} :
    (window.mapM fun result => (singleValue rendition result).map shape) = .ok values ↔
      (∀ result ∈ window, (result.single?.map shape).isSome) ∧
        window.filterMap (fun result => result.single?.map shape) = values := by
  apply Outcome.mapM_eq_ok_iff_filterMap
  intro result _ value
  cases result <;> simp [singleValue, ChunkResult.single?, Outcome.data, Except.map]

/-- A window in regions is shaped exactly if every chunk has the regions and the bounds it needs. -/
theorem shapeRegions_eq_ok_iff (hprivacy : windowing.privacy = some params)
    (hcount : params.splitCount = some count) (hwindow : window ≠ []) {values : List α} :
    windowing.shapeRegions window afterSplit = .ok values ↔
      (∀ result ∈ window, (result.split?.bind
        (regionsReference? params windowing.smartAdjust afterSplit)).isSome) ∧
      window.filterMap (fun result => result.split?.bind
        (regionsReference? params windowing.smartAdjust afterSplit)) = values := by
  rw [shapeRegions_eq hprivacy hcount]
  cases afterSplit with
  | true =>
    simp only [if_true]
    rw [Outcome.mapM_bind_map]
    apply Outcome.mapM_eq_ok_iff_filterMap
    intro result _ value
    cases result with
    | single value => simp [splitValues, ChunkResult.split?, Outcome.data, Outcome.bind_eq_ok]
    | split values =>
      simp [Outcome.bind_eq_ok, splitValues_eq_ok_iff, ChunkResult.split?,
        regionsReference?_after hcount]
  | false =>
    simp only [Bool.false_eq_true, if_false]
    by_cases hbounds : BoundsEach params count
    · rw [mapM_splitBounds_iff.mpr ⟨hbounds, rfl⟩]
      change (window.mapM (splitValues count) >>= fun chunks => Except.ok (chunks.map _)) = _ ↔ _
      rw [Outcome.mapM_bind_map]
      apply Outcome.mapM_eq_ok_iff_filterMap
      intro result _ value
      cases result with
      | single value => simp [splitValues, ChunkResult.split?, Outcome.data, Outcome.bind_eq_ok]
      | split values =>
        simp [Outcome.bind_eq_ok, splitValues_eq_ok_iff, ChunkResult.split?,
          regionsReference?_before hcount, hbounds]
    · -- No chunk has a value and the bounds cannot be read, so there is no window either way.
      have hnone : ∀ result : ChunkResult α, result.split?.bind
          (regionsReference? params windowing.smartAdjust false) = none := by
        intro result
        cases result <;> simp [ChunkResult.split?, regionsReference?_before hcount, hbounds]
      simp [Outcome.bind_eq_ok, mapM_splitBounds_iff, hbounds, hnone, List.exists_mem_of_ne_nil, hwindow]

/-- Shaping a window follows the rule for single chunks. -/
theorem shape_eq_ok_iff (hwindow : window ≠ []) {values : List α} :
    windowing.shape window afterSplit = .ok values ↔
      (∀ result ∈ window, (windowing.reference? afterSplit result).isSome) ∧
        window.filterMap (windowing.reference? afterSplit) = values := by
  -- Where shaping fails whatever the chunks are, the rule has no value for the first of them.
  have hnever (hnone : windowing.reference? afterSplit = fun _ => none) :
      ¬((∀ result ∈ window, (windowing.reference? afterSplit result).isSome) ∧
        window.filterMap (windowing.reference? afterSplit) = values) := by
    simp [hnone, List.exists_mem_of_ne_nil, hwindow]
  cases hrendition : windowing.rendition with
  | unmasked =>
    have hrule : windowing.reference? afterSplit =
        fun result => result.single?.map ChunkValue.value := by
      funext result
      simp only [reference?, hrendition]
    simp only [shape, hrendition, hrule]
    exact mapM_singleValue_iff
  | masked =>
    have hrule : windowing.reference? afterSplit =
        fun result => result.single?.map windowing.shapeMasked := by
      funext result
      simp only [reference?, hrendition]
      congr 1
      funext value
      unfold inRange shapeMasked
      cases windowing.privacy <;> rfl
    simp only [shape, hrendition, hrule]
    exact mapM_singleValue_iff
  | maskedRegions =>
    cases hprivacy : windowing.privacy with
    | none =>
      refine iff_of_false ?_ (hnever ?_)
      · simp [shape, shapeRegions, hrendition, hprivacy, Outcome.setting]
      · funext result
        simp [reference?, hrendition, hprivacy]
    | some params =>
      have hrule : windowing.reference? afterSplit = fun result =>
          result.split?.bind (regionsReference? params windowing.smartAdjust afterSplit) := by
        funext result
        simp only [reference?, hrendition, hprivacy, Option.bind_some]
      cases hcount : params.splitCount with
      | none =>
        refine iff_of_false ?_ (hnever ?_)
        · simp [shape, shapeRegions, hrendition, hprivacy, hcount, Outcome.setting]
        · funext result
          cases result <;> simp [hrule, ChunkResult.split?, regionsReference?, hcount]
      | some count =>
        simp only [shape, hrendition, hrule]
        exact shapeRegions_eq_ok_iff hprivacy hcount hwindow
  | reserved =>
    refine iff_of_false ?_ (hnever ?_)
    · simp [shape, hrendition]
    · funext result
      simp [reference?, hrendition]

/-! ### Whole sequences -/

variable {results : List (ChunkResult α)}

/-- Aggregation succeeds exactly if windows come out even and every chunk has a value, and then every
window reduces the values of its chunks. -/
theorem aggregate_eq_ok_iff {windows : List α} :
    windowing.aggregate results afterSplit = .ok windows ↔
      0 < windowing.chunksPerWindow ∧ windowing.chunksPerWindow ∣ results.length ∧
      (∀ result ∈ results, (windowing.reference? afterSplit result).isSome) ∧
      (groupsOf windowing.chunksPerWindow results).map (fun group =>
        windowing.function.reduce (group.filterMap (windowing.reference? afterSplit))) = windows := by
  unfold aggregate
  by_cases hzero : windowing.chunksPerWindow = 0
  · simp [hzero, Outcome.setting]
  have hpos := Nat.pos_of_ne_zero hzero
  by_cases hdvd : windowing.chunksPerWindow ∣ results.length
  · have heven : ¬results.length % windowing.chunksPerWindow ≠ 0 := by
      simpa using Nat.mod_eq_zero_of_dvd hdvd
    have hgroup (group : List (ChunkResult α))
        (hmem : group ∈ groupsOf windowing.chunksPerWindow results) (value : α) :
        windowing.windowValue afterSplit group = .ok value ↔
          (∀ result ∈ group, (windowing.reference? afterSplit result).isSome) ∧
          windowing.function.reduce (group.filterMap (windowing.reference? afterSplit)) = value := by
      have hlength := (mem_groupsOf hmem).1
      have hne : group ≠ [] := List.ne_nil_of_length_pos (hlength ▸ hpos)
      simp [windowValue, Outcome.map_eq_ok, shape_eq_ok_iff hne, and_assoc]
    rw [if_neg hzero, if_neg heven, Outcome.mapM_eq_ok_iff_of_mem hgroup,
      ← List.forall_mem_flatten, flatten_groupsOf hpos hdvd]
    simp [hpos, hdvd]
  · have huneven : results.length % windowing.chunksPerWindow ≠ 0 := fun h =>
      hdvd (Nat.dvd_of_mod_eq_zero h)
    simp [hzero, hdvd, huneven, Outcome.setting]

/-- Aggregation of a sequence that divides into windows succeeds exactly if the rule has a value for
every chunk. There is then one window for every so many chunks, and each window reduces the values
of the chunks from its first to its last, in order. -/
theorem aggregate_follows_reference (windowing : Windowing α) (afterSplit : Bool)
    (results : List (ChunkResult α)) (hpos : 1 ≤ windowing.chunksPerWindow)
    (hdvd : windowing.chunksPerWindow ∣ results.length) :
    ((∃ windows, windowing.aggregate results afterSplit = .ok windows) ↔
      ∀ result ∈ results, (windowing.reference? afterSplit result).isSome) ∧
    ∀ windows, windowing.aggregate results afterSplit = .ok windows →
      windows.length = results.length / windowing.chunksPerWindow ∧
      ∀ position < windows.length,
        windows[position]? = some (windowing.function.reduce
          ((results.extract (position * windowing.chunksPerWindow)
            ((position + 1) * windowing.chunksPerWindow)).filterMap
              (windowing.reference? afterSplit))) := by
  constructor
  · simp [aggregate_eq_ok_iff, hdvd, Nat.lt_of_succ_le hpos]
  · intro windows hwindows
    obtain ⟨-, -, -, rfl⟩ := aggregate_eq_ok_iff.mp hwindows
    refine ⟨by simp, fun position hposition => ?_⟩
    rw [List.length_map, length_groupsOf] at hposition
    have hstretch : (position + 1) * windowing.chunksPerWindow -
        position * windowing.chunksPerWindow = windowing.chunksPerWindow := by
      rw [Nat.succ_mul, Nat.add_sub_cancel_left]
    rw [List.getElem?_map, getElem?_groupsOf hposition, List.extract_eq_take_drop, hstretch]
    rfl

/-- Two regions in two windows of two chunks, each region in bounds of its own. -/
theorem aggregate_follows_reference_two_regions :
    let params : PrivacyParams ℚ := ⟨1, .perSplit [0, 1], .perSplit [5, 2], .max, some 2, 1⟩
    let windowing : Windowing ℚ := ⟨2, .maskedRegions, some params, true, .sum⟩
    let results : List (ChunkResult ℚ) :=
      [.split [.corrected 9 1, .plain 0], .split [.plain 3, .plain 4],
        .split [.plain 0, .plain 0], .split [.plain 6, .plain 1]]
    (1 ≤ 2 ∧ 2 ∣ results.length ∧
        ∀ result ∈ results, (windowing.reference? false result).isSome) ∧
      ∃ windows, windowing.aggregate results false = .ok windows ∧ windows.length = 2 ∧
        windows[0]? = some 8 ∧ windows[1]? = some 6 := by
  intro params windowing results
  have hadmitted : ∀ result ∈ results, (windowing.reference? false result).isSome := by
    decide +kernel
  obtain ⟨hsucceeds, hreduces⟩ :=
    aggregate_follows_reference windowing false results one_le_two ⟨2, rfl⟩
  obtain ⟨windows, hwindows⟩ := hsucceeds.mpr hadmitted
  obtain ⟨hlength, hvalue⟩ := hreduces windows hwindows
  have htwo : windows.length = 2 := hlength.trans (by decide +kernel)
  have hfirst := hvalue 0 (by rw [htwo]; exact Nat.two_pos)
  have hsecond := hvalue 1 (by rw [htwo]; exact Nat.one_lt_two)
  refine ⟨⟨one_le_two, ⟨2, rfl⟩, hadmitted⟩, windows, hwindows, htwo, ?_, ?_⟩
  · rw [hfirst]
    decide +kernel
  · rw [hsecond]
    decide +kernel

end Windowing

end PrivateFootage
