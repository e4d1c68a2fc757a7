import Mathlib
import PrivateFootage.Proofs.Track.Conservation

/-!
# Following objects frame by frame

A tracker that starts with nothing is taken through frames. In each frame every detection hits one track, and
the hits of a track are the frames in which it was hit. A track that is confirmed at some time was seen in
the frame that confirmed it, so what is ever seen is what is ever confirmed.
-/

namespace PrivateFootage

namespace Tracker

variable {α : Type} [Analytic α] {settings : TrackerSettings α} {tracker : Tracker α} {track : Track α}
  {detections : List (Detection α)} {frames past : List (List (Detection α))} {index position id id' : ℕ}

/-- The tracker after frames, from nothing. -/
def following (settings : TrackerSettings α) (frames : List (List (Detection α))) : Tracker α :=
  frames.foldl step (initial settings)

/-- One more frame is one more round. -/
theorem following_concat (settings : TrackerSettings α) (frames : List (List (Detection α)))
    (detections : List (Detection α)) :
    following settings (frames ++ [detections]) = (following settings frames).step detections :=
  List.foldl_append

/-- Frames are a run of calls. -/
theorem following_eq_after (settings : TrackerSettings α) (frames : List (List (Detection α))) :
    following settings frames = after settings (roundCalls frames) :=
  foldl_step_eq (initial settings) frames

/-- The tracks are numbered after all frames. -/
theorem numbered_following (settings : TrackerSettings α) (frames : List (List (Detection α))) :
    (following settings frames).Numbered := by
  rw [following_eq_after]
  exact numbered_after settings _

/-- A round raises a counter of a track by one at most. -/
theorem CountsWithin.step {rounds : ℕ} (htracker : tracker.CountsWithin rounds)
    (detections : List (Detection α)) : (tracker.step detections).CountsWithin (rounds + 1) := by
  intro track htrack
  rcases mem_tracks_update_iff.mp htrack with ⟨position, htakes⟩ | hkeeps
  · cases htakes with
    | hit hpair holder =>
      obtain ⟨earlier, hearlier, rfl⟩ := List.mem_map.mp (List.mem_of_getElem? holder)
      exact ⟨Nat.succ_le_succ (htracker earlier hearlier).1, Nat.zero_le _⟩
    | start harrival => exact ⟨Nat.le_add_left _ _, Nat.zero_le _⟩
  · obtain ⟨earlier, hearlier, rfl⟩ := List.mem_map.mp hkeeps.mem
    exact ⟨Nat.le_succ_of_le (htracker earlier hearlier).1, Nat.succ_le_succ (htracker earlier hearlier).2⟩

/-- No counter of a track exceeds the number of frames. -/
theorem countsWithin_following (settings : TrackerSettings α) (frames : List (List (Detection α))) :
    (following settings frames).CountsWithin frames.length := by
  induction frames using List.reverseRecOn with
  | nil => simp [CountsWithin, following, initial]
  | append_singleton frames detections ih =>
    rw [following_concat, List.length_append]
    exact ih.step detections

/-! ### What is seen -/

/-- Taking down what is seen does not change what is followed. -/
theorem fst_foldl_stepSeeing (settings : TrackerSettings α) (frames : List (List (Detection α))) :
    (frames.foldl stepSeeing (initial settings, [])).1 = following settings frames := by
  induction frames using List.reverseRecOn with
  | nil => rfl
  | append_singleton frames detections ih =>
    rw [List.foldl_append, following_concat, ← ih]
    rfl

/-- The sightings of one more frame. -/
theorem sightings_concat (settings : TrackerSettings α) (frames : List (List (Detection α)))
    (detections : List (Detection α)) :
    sightings settings (frames ++ [detections]) =
      sightings settings frames ++ [(following settings (frames ++ [detections])).visible] := by
  rw [sightings, List.foldl_append, following_concat, ← fst_foldl_stepSeeing settings frames]
  exact List.reverse_cons

/-- A track has been confirmed by the end of some frame. -/
def EverConfirmed (settings : TrackerSettings α) (frames : List (List (Detection α))) (id : ℕ) : Prop :=
  ∃ past, past <+: frames ∧
    ∃ track ∈ (following settings past).tracks, track.id = id ∧ track.standing = .confirmed

/-- A track is confirmed by one more frame, or was before. -/
theorem everConfirmed_concat : EverConfirmed settings (frames ++ [detections]) id ↔
    EverConfirmed settings frames id ∨
      ∃ track ∈ (following settings (frames ++ [detections])).tracks,
        track.id = id ∧ track.standing = .confirmed := by
  simp only [EverConfirmed, List.prefix_concat_iff, or_and_right, exists_or, exists_eq_left, or_comm]

/-- A confirmed track is seen, or it was there before and confirmed. -/
theorem visible_or_confirmed_before (htrack : track ∈ (tracker.step detections).tracks)
    (hconfirmed : track.standing = .confirmed) :
    ⟨track.id, track.box⟩ ∈ (tracker.step detections).visible ∨
      ∃ earlier ∈ tracker.tracks, earlier.id = track.id ∧ earlier.standing = .confirmed := by
  rcases mem_tracks_update_iff.mp htrack with ⟨position, htakes⟩ | hkeeps
  · obtain ⟨-, -, -, -, hage⟩ := htakes.carries
    exact .inl (mem_visible.mpr ⟨track, htrack, hconfirmed, hage, rfl⟩)
  · obtain ⟨earlier, hearlier, rfl⟩ := List.mem_map.mp hkeeps.mem
    exact .inr ⟨earlier, hearlier, rfl, hconfirmed⟩

/-- What is ever seen is what is ever confirmed. -/
theorem exists_mem_sightings_iff :
    (∃ sighting ∈ (sightings settings frames).flatten, sighting.id = id) ↔ EverConfirmed settings frames id := by
  induction frames using List.reverseRecOn with
  | nil => simp [EverConfirmed, sightings, following, initial]
  | append_singleton frames detections ih =>
    rw [everConfirmed_concat, ← ih, sightings_concat, List.flatten_append, List.flatten_singleton]
    simp only [List.mem_append, or_and_right, exists_or]
    constructor
    · rintro (hbefore | ⟨sighting, hsighting, rfl⟩)
      · exact .inl hbefore
      · obtain ⟨track, htrack, hconfirmed, -, rfl⟩ := mem_visible.mp hsighting
        exact .inr ⟨track, htrack, rfl, hconfirmed⟩
    · rintro (hbefore | ⟨track, htrack, rfl, hconfirmed⟩)
      · exact .inl hbefore
      · rw [following_concat] at htrack ⊢
        rcases visible_or_confirmed_before htrack hconfirmed with hseen | hearlier
        · exact .inr ⟨_, hseen, rfl⟩
        · exact .inl (ih.mpr ⟨frames, List.prefix_rfl, hearlier⟩)

/-! ### What is hit -/

/-- In a frame, the detection at a position hits the track with a number. -/
def HitIn (settings : TrackerSettings α) (frames : List (List (Detection α))) (index position id : ℕ) : Prop :=
  ∃ detections track, frames[index]? = some detections ∧
    (following settings (frames.take index)).predict.Takes detections position track ∧ track.id = id

/-- A hit is one of a detection that there is. -/
theorem HitIn.exists_frame (hhit : HitIn settings frames index position id) :
    ∃ detections, frames[index]? = some detections ∧ position < detections.length := by
  obtain ⟨detections, track, hframe, htakes, -⟩ := hhit
  exact ⟨detections, hframe, htakes.lt_length⟩

/-- A detection hits one track only. -/
theorem HitIn.id_eq (hhit : HitIn settings frames index position id)
    (hhit' : HitIn settings frames index position id') : id = id' := by
  obtain ⟨detections, track, hframe, htakes, rfl⟩ := hhit
  obtain ⟨detections', track', hframe', htakes', rfl⟩ := hhit'
  obtain rfl := Option.some.inj (hframe.symm.trans hframe')
  rw [htakes.track_eq htakes']

/-- What is hit in the frames so far is hit in all of them. -/
theorem HitIn.append (hhit : HitIn settings past index position id) (rest : List (List (Detection α))) :
    HitIn settings (past ++ rest) index position id := by
  obtain ⟨detections, track, hframe, htakes, hid⟩ := hhit
  have hindex := (List.getElem?_eq_some_iff.mp hframe).1
  refine ⟨detections, track, ?_, ?_, hid⟩
  · rw [List.getElem?_append_left hindex, hframe]
  · rwa [List.take_append_of_le_length hindex.le]

/-- One more frame adds the hits of its detections. -/
theorem hitIn_concat : HitIn settings (frames ++ [detections]) index position id ↔
    HitIn settings frames index position id ∨
      index = frames.length ∧
        ∃ track, (following settings frames).predict.Takes detections position track ∧ track.id = id := by
  constructor
  · rintro ⟨frame, track, hframe, htakes, hid⟩
    rcases Nat.lt_or_ge index frames.length with hlt | hge
    · rw [List.getElem?_append_left hlt] at hframe
      rw [List.take_append_of_le_length hlt.le] at htakes
      exact .inl ⟨frame, track, hframe, htakes, hid⟩
    · have hlast : index = frames.length := by
        have hbound := (List.getElem?_eq_some_iff.mp hframe).1
        rw [List.length_append, List.length_singleton] at hbound
        omega
      subst hlast
      rw [List.getElem?_concat_length] at hframe
      rw [List.take_left] at htakes
      cases hframe
      exact .inr ⟨rfl, track, htakes, hid⟩
  · rintro (hhit | ⟨rfl, track, htakes, hid⟩)
    · exact hhit.append [detections]
    · refine ⟨detections, track, List.getElem?_concat_length, ?_, hid⟩
      rwa [List.take_left]

/-- The number of a track that was hit has been given out. -/
theorem HitIn.lt_nextId (hhit : HitIn settings frames index position id) :
    id < (following settings frames).nextId := by
  induction frames using List.reverseRecOn with
  | nil =>
    obtain ⟨detections, hframe, -⟩ := hhit.exists_frame
    cases hframe
  | append_singleton frames detections ih =>
    rcases hitIn_concat.mp hhit with hbefore | ⟨-, track, htakes, rfl⟩
    · rw [following_concat]
      exact Nat.lt_add_right _ (ih hbefore)
    · have hmem : track ∈ (following settings (frames ++ [detections])).tracks := by
        rw [following_concat]
        exact mem_tracks_update_iff.mpr (.inl ⟨position, htakes⟩)
      exact (numbered_following settings _).lt_nextId _ (List.mem_map_of_mem hmem)

/-- No hit of the frames so far is one of the frame to come. -/
theorem not_hitIn_length : ¬HitIn settings frames frames.length position id := by
  intro hhit
  obtain ⟨detections, hframe, -⟩ := hhit.exists_frame
  exact (List.getElem?_eq_some_iff.mp hframe).1.ne rfl

/-- Some frames are those in which a detection hit the track with a number. -/
def AreHitFrames (settings : TrackerSettings α) (frames : List (List (Detection α))) (id : ℕ)
    (hitFrames : Finset ℕ) : Prop :=
  ∀ index, index ∈ hitFrames ↔ ∃ position, HitIn settings frames index position id

/-- A frame in which the track is hit is one more of them. -/
theorem AreHitFrames.concat_of_takes {hitFrames : Finset ℕ} (hframes : AreHitFrames settings frames id hitFrames)
    (htakes : (following settings frames).predict.Takes detections position track) (hid : track.id = id) :
    AreHitFrames settings (frames ++ [detections]) id (insert frames.length hitFrames) := by
  intro index
  simp only [Finset.mem_insert, hframes index, hitIn_concat, exists_or]
  constructor
  · rintro (rfl | hbefore)
    · exact .inr ⟨position, rfl, track, htakes, hid⟩
    · exact .inl hbefore
  · rintro (hbefore | ⟨position, hlast, -⟩)
    · exact .inr hbefore
    · exact .inl hlast

/-- A frame in which the track is kept as it is is none of them. -/
theorem AreHitFrames.concat_of_keeps {hitFrames : Finset ℕ} (hframes : AreHitFrames settings frames id hitFrames)
    (hkeeps : (following settings frames).predict.Keeps detections track) (hid : track.id = id) :
    AreHitFrames settings (frames ++ [detections]) id hitFrames := by
  have hnumbered := (numbered_following settings frames).perform .predict
  intro index
  simp only [hframes index, hitIn_concat, exists_or]
  refine (or_iff_left ?_).symm
  rintro ⟨position, -, other, htakes, hother⟩
  exact hkeeps.not_takes hnumbered htakes (hid.trans hother.symm)

/-- The hits of a track are the frames in which a detection hit it. -/
theorem exists_hitFrames (htrack : track ∈ (following settings frames).tracks) :
    ∃ hitFrames, AreHitFrames settings frames track.id hitFrames ∧ hitFrames.card = track.hits := by
  induction frames using List.reverseRecOn generalizing track with
  | nil => simp [following, initial] at htrack
  | append_singleton frames detections ih =>
    rw [following_concat] at htrack
    rcases mem_tracks_update_iff.mp htrack with ⟨position, htakes⟩ | hkeeps
    · have hbefore : ∃ hitFrames, AreHitFrames settings frames track.id hitFrames ∧
          hitFrames.card + 1 = track.hits := by
        cases htakes with
        | hit hpair holder =>
          obtain ⟨earlier, hearlier, rfl⟩ := List.mem_map.mp (List.mem_of_getElem? holder)
          obtain ⟨hitFrames, hframes, hcard⟩ := ih hearlier
          exact ⟨hitFrames, hframes, congrArg (· + 1) hcard⟩
        | start harrival =>
          -- The number is new, so no detection can have hit it before.
          refine ⟨∅, fun index => ?_, rfl⟩
          simp only [Finset.notMem_empty, false_iff, not_exists]
          exact fun position hhit => absurd hhit.lt_nextId (Nat.le_add_right _ _).not_gt
      obtain ⟨hitFrames, hframes, hcard⟩ := hbefore
      have hnew : frames.length ∉ hitFrames := by
        rw [hframes]
        rintro ⟨position, hhit⟩
        exact not_hitIn_length hhit
      exact ⟨_, hframes.concat_of_takes htakes rfl, (Finset.card_insert_of_notMem hnew).trans hcard⟩
    · obtain ⟨earlier, hearlier, rfl⟩ := List.mem_map.mp hkeeps.mem
      obtain ⟨hitFrames, hframes, hcard⟩ := ih hearlier
      exact ⟨hitFrames, hframes.concat_of_keeps hkeeps rfl, hcard⟩

end Tracker

end PrivateFootage
