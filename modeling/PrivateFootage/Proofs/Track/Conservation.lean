import Mathlib
import PrivateFootage.Proofs.Track.Counters
import PrivateFootage.Proofs.Track.Matching

/-!
# Where detections go

An update gives every detection to one track: the one it is matched to, or else one that is started with it
under the next number. No track is given two detections. All other tracks are kept as they are if they are
confirmed and not too old, and ended if not. So the tracks that are hit in a frame are as many as its
detections, and no more can be seen.
-/

namespace PrivateFootage

namespace Tracker

variable {α : Type} [Analytic α] {settings : TrackerSettings α} {tracker : Tracker α} {track track' : Track α}
  {detections : List (Detection α)} {position position' : ℕ}

/-! ### What an update does to each detection and each track -/

/-- The detections that no track is matched to, with their positions, in order. -/
def arrivals (tracker : Tracker α) (detections : List (Detection α)) : List (Detection α × ℕ) :=
  detections.zipIdx.filter fun placed =>
    !(Candidate.matched tracker detections).any fun pair => pair.position = placed.2

/-- An update gives the detection at a position to a track, which is then as stated. -/
inductive Takes (tracker : Tracker α) (detections : List (Detection α)) : ℕ → Track α → Prop
  | hit {pair : Candidate α} {track : Track α} (hpair : pair ∈ Candidate.matched tracker detections)
      (htrack : tracker.tracks[pair.track]? = some track) :
    Takes tracker detections pair.position (track.hit tracker.settings pair.detection)
  | start {placed : Detection α × ℕ} {offset : ℕ}
      (harrival : (tracker.arrivals detections)[offset]? = some placed) :
    Takes tracker detections placed.2 (Track.start (tracker.nextId + offset) placed.1)

/-- An update leaves a track as it is: no detection is matched to it, and it survives. -/
def Keeps (tracker : Tracker α) (detections : List (Detection α)) (track : Track α) : Prop :=
  ∃ position, tracker.tracks[position]? = some track ∧
    (∀ pair ∈ Candidate.matched tracker detections, pair.track ≠ position) ∧
    track.survives tracker.settings = true

/-- A track that is kept was there before. -/
theorem Keeps.mem (hkeeps : tracker.Keeps detections track) : track ∈ tracker.tracks := by
  obtain ⟨position, htrack, -⟩ := hkeeps
  exact List.mem_of_getElem? htrack

/-- The tracks after an update are those carried over and those started. -/
theorem tracks_update (tracker : Tracker α) (detections : List (Detection α)) :
    (tracker.update detections).tracks =
      tracker.tracks.zipIdx.filterMap (carry tracker.settings (Candidate.matched tracker detections)) ++
        (tracker.arrivals detections).zipIdx.map fun placed =>
          Track.start (tracker.nextId + placed.2) placed.1.1 := by
  have hfresh : unmatched (Candidate.matched tracker detections) detections =
      (tracker.arrivals detections).map Prod.fst := rfl
  dsimp only [update, updateWith]
  rw [hfresh, List.zipIdx_map, List.map_map]
  rfl

/-- A track that a detection is matched to is hit by it. -/
theorem carry_of_mem_matched {pair : Candidate α} (hpair : pair ∈ Candidate.matched tracker detections) :
    carry tracker.settings (Candidate.matched tracker detections) (track, pair.track) =
      some (track.hit tracker.settings pair.detection) := by
  have hfound : ((Candidate.matched tracker detections).find? fun other => other.track = pair.track) =
      some pair := by
    cases hfind : (Candidate.matched tracker detections).find? fun other => other.track = pair.track with
    | none => simpa using List.find?_eq_none.mp hfind pair hpair
    | some other =>
      have hshared : other.track = pair.track := by simpa using List.find?_some hfind
      rw [Candidate.eq_of_shared (List.mem_of_find?_eq_some hfind) hpair (.inl hshared)]
  unfold carry carryWith
  rw [hfound]
  rfl

omit [Analytic α] in
/-- A track that no detection is matched to stays as it is or goes. -/
theorem carry_of_forall_ne {matched : List (Candidate α)} (hfree : ∀ pair ∈ matched, pair.track ≠ position) :
    carry settings matched (track, position) = if track.survives settings then some track else none := by
  have hnone : (matched.find? fun pair => pair.track = position) = none :=
    List.find?_eq_none.mpr (by simpa using hfree)
  unfold carry carryWith
  rw [hnone]

/-- After an update there are the tracks that were given a detection and those that were kept. -/
theorem mem_tracks_update_iff : track ∈ (tracker.update detections).tracks ↔
    (∃ position, tracker.Takes detections position track) ∨ tracker.Keeps detections track := by
  rw [tracks_update, List.mem_append, List.mem_filterMap, List.mem_map]
  constructor
  · rintro (⟨⟨earlier, position⟩, hearlier, hcarry⟩ | ⟨⟨placed, offset⟩, hplaced, rfl⟩)
    · rw [List.mk_mem_zipIdx_iff_getElem?] at hearlier
      rcases carry_eq_some hcarry with ⟨pair, hpair, rfl, rfl⟩ | ⟨hfree, hsurvives, rfl⟩
      · exact .inl ⟨pair.position, .hit hpair hearlier⟩
      · exact .inr ⟨position, hearlier, hfree, hsurvives⟩
    · exact .inl ⟨placed.2, .start (List.mk_mem_zipIdx_iff_getElem?.mp hplaced)⟩
  · rintro (⟨position, htakes⟩ | ⟨position, htrack, hfree, hsurvives⟩)
    · cases htakes with
      | hit hpair htrack =>
        exact .inl ⟨_, List.mk_mem_zipIdx_iff_getElem?.mpr htrack, carry_of_mem_matched hpair⟩
      | start harrival => exact .inr ⟨_, List.mk_mem_zipIdx_iff_getElem?.mpr harrival, rfl⟩
    · refine .inl ⟨_, List.mk_mem_zipIdx_iff_getElem?.mpr htrack, ?_⟩
      rw [carry_of_forall_ne hfree, if_pos hsurvives]

/-! ### Every detection goes to one track -/

/-- A detection has arrived if no track is matched to it. -/
theorem mem_arrivals {placed : Detection α × ℕ} : placed ∈ tracker.arrivals detections ↔
    detections[placed.2]? = some placed.1 ∧
      ∀ pair ∈ Candidate.matched tracker detections, pair.position ≠ placed.2 := by
  simp [arrivals, List.mem_filter, List.mem_zipIdx_iff_getElem?]

/-- The track that takes a detection carries its box and feature and was hit just now. -/
theorem Takes.carries (htakes : tracker.Takes detections position track) :
    ∃ detection, detections[position]? = some detection ∧ track.box = detection.box ∧
      track.feature = detection.feature ∧ track.age = 0 := by
  cases htakes with
  | hit hpair htrack => exact ⟨_, (Candidate.allowed_of_mem_matched hpair).1, rfl, rfl, rfl⟩
  | start harrival => exact ⟨_, (mem_arrivals.mp (List.mem_of_getElem? harrival)).1, rfl, rfl, rfl⟩

/-- Only detections that there are go to tracks. -/
theorem Takes.lt_length (htakes : tracker.Takes detections position track) : position < detections.length := by
  obtain ⟨detection, hdetection, -⟩ := htakes.carries
  exact (List.getElem?_eq_some_iff.mp hdetection).1

/-- The detections that have arrived come in order, each once. -/
theorem pairwise_arrivals (tracker : Tracker α) (detections : List (Detection α)) :
    (tracker.arrivals detections).Pairwise fun first second => first.2 < second.2 :=
  (pairwise_zipIdx detections).sublist List.filter_sublist

/-- The offset of an arrival is known from its position. -/
theorem offset_eq_of_position_eq {placed placed' : Detection α × ℕ} {offset offset' : ℕ}
    (harrival : (tracker.arrivals detections)[offset]? = some placed)
    (harrival' : (tracker.arrivals detections)[offset']? = some placed') (hposition : placed.2 = placed'.2) :
    offset = offset' := by
  have hnodup : ((tracker.arrivals detections).map Prod.snd).Nodup :=
    (List.pairwise_map.mpr (pairwise_arrivals tracker detections)).imp fun hlt => hlt.ne
  have hbound : offset < ((tracker.arrivals detections).map Prod.snd).length := by
    rw [List.length_map]
    exact (List.getElem?_eq_some_iff.mp harrival).1
  refine (List.getElem?_inj hbound hnodup).mp ?_
  rw [List.getElem?_map, List.getElem?_map, harrival, harrival', Option.map_some, Option.map_some, hposition]

/-- A detection goes to one track only. -/
theorem Takes.track_eq (htakes : tracker.Takes detections position track)
    (htakes' : tracker.Takes detections position track') : track = track' := by
  generalize hsame : position = position' at htakes'
  cases htakes with
  | hit hpair htrack =>
    cases htakes' with
    | hit hpair' htrack' =>
      obtain rfl := Candidate.eq_of_shared hpair hpair' (.inr hsame)
      rw [Option.some.inj (htrack.symm.trans htrack')]
    | start harrival => exact absurd hsame ((mem_arrivals.mp (List.mem_of_getElem? harrival)).2 _ hpair)
  | start harrival =>
    cases htakes' with
    | hit hpair htrack => exact absurd hsame.symm ((mem_arrivals.mp (List.mem_of_getElem? harrival)).2 _ hpair)
    | start harrival' =>
      obtain rfl := offset_eq_of_position_eq harrival harrival' hsame
      rw [Option.some.inj (harrival.symm.trans harrival')]

/-! ### No track takes two detections -/

omit [Analytic α] in
/-- A number stands for one position and one track. -/
theorem Numbered.position_eq_of_id_eq (htracker : tracker.Numbered)
    (htrack : tracker.tracks[position]? = some track) (htrack' : tracker.tracks[position']? = some track')
    (hid : track.id = track'.id) : position = position' ∧ track = track' := by
  have hsame := htracker.eq_of_id_eq (List.mk_mem_zipIdx_iff_getElem?.mpr htrack')
    (List.mk_mem_zipIdx_iff_getElem?.mpr htrack) hid
  exact ⟨congrArg Prod.snd hsame, congrArg Prod.fst hsame⟩

/-- A detection is matched to the track with a number. -/
def Matches (tracker : Tracker α) (detections : List (Detection α)) (id : ℕ) : Prop :=
  ∃ pair ∈ Candidate.matched tracker detections, tracker.ids[pair.track]? = some id

instance decidableMatches (tracker : Tracker α) (detections : List (Detection α)) (id : ℕ) :
    Decidable (tracker.Matches detections id) :=
  inferInstanceAs (Decidable (∃ pair ∈ Candidate.matched tracker detections, tracker.ids[pair.track]? = some id))

/-- A number belongs to a track that an update hits or creates. -/
def Touches (tracker : Tracker α) (detections : List (Detection α)) (id : ℕ) : Prop :=
  id ∉ tracker.ids ∨ tracker.Matches detections id

omit [Analytic α] in
/-- The number at a position is that of the track there. -/
theorem getElem?_ids_eq_some_iff {id : ℕ} : tracker.ids[position]? = some id ↔
    ∃ track, tracker.tracks[position]? = some track ∧ track.id = id := by
  rw [ids, List.getElem?_map, Option.map_eq_some_iff]

/-- A track is matched to a detection if a matched pair has its position. -/
theorem Numbered.matches_iff (htracker : tracker.Numbered) (htrack : tracker.tracks[position]? = some track) :
    tracker.Matches detections track.id ↔
      ∃ pair ∈ Candidate.matched tracker detections, pair.track = position := by
  refine exists_congr fun pair => and_congr_right fun _ => ?_
  rw [getElem?_ids_eq_some_iff]
  constructor
  · rintro ⟨other, hother, hid⟩
    exact (htracker.position_eq_of_id_eq hother htrack hid).1
  · rintro rfl
    exact ⟨track, htrack, rfl⟩

omit [Analytic α] in
/-- The numbers that are still to be given out are those of no track. -/
theorem Numbered.nextId_add_notMem (htracker : tracker.Numbered) (offset : ℕ) :
    tracker.nextId + offset ∉ tracker.ids :=
  fun hid => absurd (htracker.lt_nextId _ hid) (Nat.le_add_right tracker.nextId offset).not_gt

/-- A track that takes a detection is hit or created. -/
theorem Takes.touches (htracker : tracker.Numbered) (htakes : tracker.Takes detections position track) :
    tracker.Touches detections track.id := by
  cases htakes with
  | hit hpair htrack => exact .inr ⟨_, hpair, getElem?_ids_eq_some_iff.mpr ⟨_, htrack, rfl⟩⟩
  | start harrival => exact .inl (htracker.nextId_add_notMem _)

/-- A track that is kept is neither hit nor created. -/
theorem Keeps.not_touches (htracker : tracker.Numbered) (hkeeps : tracker.Keeps detections track) :
    ¬tracker.Touches detections track.id := by
  obtain ⟨position, htrack, hfree, -⟩ := hkeeps
  rintro (hnew | hmatches)
  · exact hnew (List.mem_map_of_mem (List.mem_of_getElem? htrack))
  · obtain ⟨pair, hpair, hposition⟩ := (htracker.matches_iff htrack).mp hmatches
    exact hfree pair hpair hposition

/-- A track that is kept is given no detection. -/
theorem Keeps.not_takes (htracker : tracker.Numbered) (hkeeps : tracker.Keeps detections track)
    (htakes : tracker.Takes detections position track') : track.id ≠ track'.id := by
  intro hid
  refine hkeeps.not_touches htracker ?_
  rw [hid]
  exact htakes.touches htracker

omit [Analytic α] in
/-- A track that is tentative or too old does not survive, and every other one does. -/
theorem survives_eq_false_iff : track.survives settings = false ↔
    track.standing = .tentative ∨ settings.maxAge < track.age := by
  unfold Track.survives
  cases track.standing <;> simp

/-- A track that is matched to nothing is kept if it survives. -/
theorem Numbered.keeps_of_not_matches (htracker : tracker.Numbered) (htrack : track ∈ tracker.tracks)
    (hmissed : ¬tracker.Matches detections track.id) (hsurvives : track.survives tracker.settings = true) :
    tracker.Keeps detections track := by
  obtain ⟨position, hposition⟩ := List.mem_iff_getElem?.mp htrack
  refine ⟨position, hposition, fun pair hpair heq => hmissed ?_, hsurvives⟩
  exact (htracker.matches_iff hposition).mpr ⟨pair, hpair, heq⟩

/-- The numbers that are gone after an update are those of unmatched tracks that do not survive. -/
theorem Numbered.notMem_ids_update_iff (htracker : tracker.Numbered) (htrack : track ∈ tracker.tracks) :
    track.id ∉ (tracker.update detections).ids ↔ ¬tracker.Matches detections track.id ∧
      (track.standing = .tentative ∨ tracker.settings.maxAge < track.age) := by
  obtain ⟨position, hposition⟩ := List.mem_iff_getElem?.mp htrack
  constructor
  · intro hgone
    have hmissed : ¬tracker.Matches detections track.id := by
      rintro ⟨pair, hpair, hid⟩
      obtain ⟨earlier, hearlier, hid⟩ := getElem?_ids_eq_some_iff.mp hid
      exact hgone (List.mem_map.mpr ⟨_, mem_tracks_update_iff.mpr (.inl ⟨_, .hit hpair hearlier⟩), hid⟩)
    refine ⟨hmissed, survives_eq_false_iff.mp (Bool.eq_false_iff.mpr fun hsurvives => hgone ?_)⟩
    have hkeeps := htracker.keeps_of_not_matches htrack hmissed hsurvives
    exact List.mem_map_of_mem (mem_tracks_update_iff.mpr (.inr hkeeps))
  · rintro ⟨hmissed, hends⟩
    refine htracker.notMem_ids_update (List.mk_mem_zipIdx_iff_getElem?.mpr hposition) ?_ hends
    exact fun pair hpair heq => hmissed ((htracker.matches_iff hposition).mpr ⟨pair, hpair, heq⟩)

/-! ### The whole of it -/

omit [Analytic α] in
/-- What is seen are the confirmed tracks that were hit just now. -/
theorem mem_visible {sighting : Sighting α} : sighting ∈ tracker.visible ↔
    ∃ track ∈ tracker.tracks, track.standing = .confirmed ∧ track.age = 0 ∧
      sighting = ⟨track.id, track.box⟩ := by
  simp only [visible, List.mem_map, List.mem_filter, decide_eq_true_eq, and_assoc]
  simp only [eq_comm]

omit [Analytic α] in
/-- No track is seen twice. -/
theorem Numbered.nodup_visible (htracker : tracker.Numbered) : (tracker.visible.map Sighting.id).Nodup := by
  have hids : (tracker.visible.map Sighting.id).Sublist tracker.ids := by
    rw [visible, List.map_map]
    exact List.filter_sublist.map Track.id
  exact htracker.increasing.nodup.sublist hids

end Tracker

end PrivateFootage
