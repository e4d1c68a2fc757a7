import Mathlib
import PrivateFootage.Aggregator

/-!
# What thresholds decide

A filter looks at the confidences of rows and at how much their boxes cover each other. A tracker looks at
the boxes and features of detections, those of its tracks included: a track carries the box and the
feature of a detection that it was hit by. Thresholds that come out alike on everything they are compared
with therefore give the same detections, the same tracks and the same sightings.
-/

namespace PrivateFootage

/-! ### Filters -/

section Filter

variable {α : Type} [Scalar α] {kept placed : List (Placed α)} {maxOverlap maxOverlap' : α}

/-- Two limits keep the same detections if they come out alike on how much these cover each other. -/
theorem foldl_keepUncovered_congr (pool : List (Detection α))
    (halike : ∀ above ∈ pool, ∀ below ∈ pool,
      (Box.coverage above.box below.box ≤ maxOverlap ↔ Box.coverage above.box below.box ≤ maxOverlap'))
    (hkept : ∀ above ∈ kept, above.1 ∈ pool) (hplaced : ∀ below ∈ placed, below.1 ∈ pool) :
    placed.foldl (keepUncovered maxOverlap) kept = placed.foldl (keepUncovered maxOverlap') kept := by
  induction placed generalizing kept with
  | nil => rfl
  | cons next placed ih =>
    obtain ⟨hnext, hplaced⟩ := List.forall_mem_cons.mp hplaced
    have hall : (kept.all fun above => decide (Box.coverage above.1.box next.1.box ≤ maxOverlap)) =
        kept.all fun above => decide (Box.coverage above.1.box next.1.box ≤ maxOverlap') := by
      rw [Bool.eq_iff_iff, List.all_eq_true, List.all_eq_true]
      refine forall₂_congr fun above habove => ?_
      rw [decide_eq_true_eq, decide_eq_true_eq]
      exact halike above.1 (hkept above habove) next.1 hnext
    have hstep : keepUncovered maxOverlap kept next = keepUncovered maxOverlap' kept next := by
      rw [keepUncovered, keepUncovered, hall]
    rw [List.foldl_cons, List.foldl_cons, hstep]
    refine ih ?_ hplaced
    unfold keepUncovered
    split_ifs
    · exact List.forall_mem_cons.mpr ⟨hnext, hkept⟩
    · exact hkept

/-- Two filters pass the same detections of a frame if their thresholds come out alike on it. -/
theorem Filter.apply_congr {filter other : Filter α} {frame : Frame α}
    (hconfidence : ∀ row ∈ frame,
      (filter.confidenceThreshold ≤ row.confidence ↔ other.confidenceThreshold ≤ row.confidence))
    (hcoverage : ∀ above ∈ frame, ∀ below ∈ frame,
      (Box.coverage above.box below.box ≤ filter.maxOverlap ↔
        Box.coverage above.box below.box ≤ other.maxOverlap)) :
    filter.apply frame = other.apply frame := by
  have hconfident : (frame.filter fun row => decide (filter.confidenceThreshold ≤ row.confidence)) =
      frame.filter fun row => decide (other.confidenceThreshold ≤ row.confidence) :=
    List.filter_congr fun row hrow => decide_eq_decide.mpr (hconfidence row hrow)
  unfold apply suppress
  dsimp only
  rw [hconfident]
  congr 2
  refine foldl_keepUncovered_congr (frame.map Row.detection) ?_ (by simp) ?_
  · simp only [List.forall_mem_map]
    exact hcoverage
  · intro below hbelow
    have hpassed := List.fst_mem_of_mem_zipIdx (List.mem_mergeSort.mp hbelow)
    exact List.map_subset _ (List.filter_subset_self _) hpassed

end Filter

/-! ### Trackers -/

section Tracker

variable {α : Type} [Analytic α] {settings settings' : TrackerSettings α} {pool detections : List (Detection α)}
  {tracker : Tracker α}

/-- Two settings of trackers come out alike on a pool of detections. -/
structure TrackerSettings.AlikeOn (settings settings' : TrackerSettings α) (pool : List (Detection α)) :
    Prop where
  maxAge_eq : settings.maxAge = settings'.maxAge
  hitsToConfirm_eq : settings.hitsToConfirm = settings'.hitsToConfirm
  box_iff : ∀ earlier ∈ pool, ∀ later ∈ pool,
    (settings.maxBoxDistance < 1 - Box.overlap earlier.box later.box ↔
      settings'.maxBoxDistance < 1 - Box.overlap earlier.box later.box)
  feature_iff : ∀ earlier ∈ pool, ∀ later ∈ pool,
    (settings.maxFeatureDistance < featureDistance earlier.feature later.feature ↔
      settings'.maxFeatureDistance < featureDistance earlier.feature later.feature)

/-- A track carries the box and the feature of a detection from a pool. -/
def Track.DrawnFrom (pool : List (Detection α)) (track : Track α) : Prop :=
  ∃ detection ∈ pool, track.box = detection.box ∧ track.feature = detection.feature

/-- The same tracker with other settings. -/
def Tracker.withSettings (settings : TrackerSettings α) (tracker : Tracker α) : Tracker α :=
  { tracker with settings }

/-- Alike settings allow the same matches. -/
theorem Candidate.cost?_congr (halike : settings.AlikeOn settings' pool) {track : Track α}
    (htrack : track.DrawnFrom pool) {detection : Detection α} (hdetection : detection ∈ pool) :
    cost? settings track detection = cost? settings' track detection := by
  obtain ⟨earlier, hearlier, hbox, hfeature⟩ := htrack
  unfold cost?
  dsimp only
  rw [hbox, hfeature]
  simp only [halike.box_iff earlier hearlier detection hdetection,
    halike.feature_iff earlier hearlier detection hdetection]

/-- The detection of a candidate is one of the frame. -/
theorem Candidate.detection_mem_of_mem_all {candidate : Candidate α}
    (hcandidate : candidate ∈ all tracker detections) : candidate.detection ∈ detections := by
  obtain ⟨⟨track, trackPosition⟩, -, hpairs⟩ := List.mem_flatMap.mp hcandidate
  obtain ⟨⟨detection, position⟩, hdetection, hcost⟩ := List.mem_filterMap.mp hpairs
  obtain ⟨cost, -, rfl⟩ := Option.map_eq_some_iff.mp hcost
  exact List.fst_mem_of_mem_zipIdx hdetection

omit [Analytic α] in
/-- Candidates are matched out of those that there are. -/
theorem Candidate.mem_of_mem_foldl_take {taken candidates : List (Candidate α)} {candidate : Candidate α}
    (hcandidate : candidate ∈ candidates.foldl take taken) :
    candidate ∈ taken ∨ candidate ∈ candidates := by
  induction candidates generalizing taken with
  | nil => exact .inl hcandidate
  | cons next candidates ih =>
    rcases ih hcandidate with htaken | hlater
    · unfold take at htaken
      split_ifs at htaken
      · exact .inl htaken
      · rcases List.mem_cons.mp htaken with rfl | hbefore
        · exact .inr List.mem_cons_self
        · exact .inl hbefore
    · exact .inr (List.mem_cons_of_mem _ hlater)

/-- The detection of a match is one of the frame. -/
theorem Candidate.detection_mem_of_mem_matched {candidate : Candidate α}
    (hcandidate : candidate ∈ matched tracker detections) : candidate.detection ∈ detections := by
  have hall := (mem_of_mem_foldl_take hcandidate).resolve_left List.not_mem_nil
  exact detection_mem_of_mem_all (List.mem_mergeSort.mp hall)

/-- Alike settings make the same matches. -/
theorem Candidate.matched_congr (halike : tracker.settings.AlikeOn settings' pool)
    (htracks : ∀ track ∈ tracker.tracks, track.DrawnFrom pool)
    (hdetections : ∀ detection ∈ detections, detection ∈ pool) :
    matched (tracker.withSettings settings') detections = matched tracker detections := by
  have hall : all (tracker.withSettings settings') detections = all tracker detections := by
    refine List.flatMap_congr fun placedTrack hplacedTrack => ?_
    refine List.filterMap_congr fun placed hplaced => ?_
    have hcost : cost? tracker.settings placedTrack.1 placed.1 = cost? settings' placedTrack.1 placed.1 :=
      cost?_congr halike (htracks placedTrack.1 (List.fst_mem_of_mem_zipIdx hplacedTrack))
        (hdetections placed.1 (List.fst_mem_of_mem_zipIdx hplaced))
    dsimp only [Tracker.withSettings]
    rw [hcost]
  rw [matched, matched, hall]

/-- Settings that confirm and forget alike carry tracks alike. -/
theorem Tracker.carryWith_congr (raise : ℕ → ℕ) (halike : settings.AlikeOn settings' pool) :
    carryWith raise settings = carryWith raise settings' := by
  funext matched placed
  unfold carryWith Track.hitWith Track.survives
  rw [halike.maxAge_eq, halike.hitsToConfirm_eq]

/-- Taking the detections of a frame, alike settings give the same tracks, and these carry boxes and
features of detections. -/
theorem Tracker.update_congr (halike : tracker.settings.AlikeOn settings' pool)
    (htracks : ∀ track ∈ tracker.tracks, track.DrawnFrom pool)
    (hdetections : ∀ detection ∈ detections, detection ∈ pool) :
    (tracker.withSettings settings').update detections =
        (tracker.update detections).withSettings settings' ∧
      ∀ track ∈ (tracker.update detections).tracks, track.DrawnFrom pool := by
  constructor
  · unfold update updateWith
    rw [Candidate.matched_congr halike htracks hdetections]
    dsimp only [withSettings]
    rw [carryWith_congr _ halike]
  · intro track htrack
    rcases List.mem_append.mp htrack with hcarried | hstarted
    · obtain ⟨⟨before, position⟩, hbefore, hcarry⟩ := List.mem_filterMap.mp hcarried
      unfold carryWith at hcarry
      split at hcarry
      · next candidate hfound =>
        cases hcarry
        have hmatched := Candidate.detection_mem_of_mem_matched (List.mem_of_find?_eq_some hfound)
        exact ⟨candidate.detection, hdetections _ hmatched, rfl, rfl⟩
      · split_ifs at hcarry
        cases hcarry
        exact htracks before (List.fst_mem_of_mem_zipIdx hbefore)
    · obtain ⟨⟨detection, offset⟩, hfresh, rfl⟩ := List.mem_map.mp hstarted
      have hunmatched := List.fst_mem_of_mem_zipIdx hfresh
      obtain ⟨placed, hplaced, rfl⟩ := List.mem_map.mp hunmatched
      have hdetection := List.fst_mem_of_mem_zipIdx (List.mem_filter.mp hplaced).1
      exact ⟨placed.1, hdetections _ hdetection, rfl, rfl⟩

/-- Letting a frame pass and taking its detections, alike settings give the same tracks. -/
theorem Tracker.step_congr (halike : tracker.settings.AlikeOn settings' pool)
    (htracks : ∀ track ∈ tracker.tracks, track.DrawnFrom pool)
    (hdetections : ∀ detection ∈ detections, detection ∈ pool) :
    (tracker.withSettings settings').step detections = (tracker.step detections).withSettings settings' ∧
      ∀ track ∈ (tracker.step detections).tracks, track.DrawnFrom pool := by
  have hpredicted : ∀ track ∈ tracker.predict.tracks, track.DrawnFrom pool := by
    unfold predict predictWith
    simp only [List.forall_mem_map]
    exact htracks
  have hsettings : tracker.predict.settings.AlikeOn settings' pool := halike
  exact update_congr hsettings hpredicted hdetections

/-- Along a run of frames, alike settings give the same sightings. -/
theorem Tracker.foldl_stepSeeing_congr {frames : List (List (Detection α))}
    {seen : List (List (Sighting α))} (halike : tracker.settings.AlikeOn settings' pool)
    (htracks : ∀ track ∈ tracker.tracks, track.DrawnFrom pool)
    (hframes : ∀ frame ∈ frames, ∀ detection ∈ frame, detection ∈ pool) :
    (frames.foldl stepSeeing (tracker.withSettings settings', seen)).2 =
      (frames.foldl stepSeeing (tracker, seen)).2 := by
  induction frames generalizing tracker seen with
  | nil => rfl
  | cons frame frames ih =>
    obtain ⟨hframe, hframes⟩ := List.forall_mem_cons.mp hframes
    obtain ⟨hstep, hdrawn⟩ := step_congr halike htracks hframe
    rw [List.foldl_cons, List.foldl_cons, stepSeeing, stepSeeing, hstep]
    exact ih halike hdrawn hframes

/-- Alike settings give the same sightings. -/
theorem Tracker.sightings_congr {frames : List (List (Detection α))}
    (halike : settings.AlikeOn settings' frames.flatten) :
    sightings settings frames = sightings settings' frames := by
  have hrun : (frames.foldl stepSeeing ((initial settings).withSettings settings', [])).2 =
      (frames.foldl stepSeeing (initial settings, [])).2 :=
    foldl_stepSeeing_congr halike (by simp [initial]) fun frame hframe detection hdetection =>
      List.mem_flatten.mpr ⟨frame, hframe, hdetection⟩
  exact congrArg List.reverse hrun.symm

end Tracker

end PrivateFootage
