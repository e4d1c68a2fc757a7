import Mathlib
import PrivateFootage.Proofs.Track.Conservation

/-!
# Tracks that are missed

A confirmed track that no detection is matched to is kept while it is not too old. Round after round it only
ages, and it is not seen. It is gone after one more round than the settings allow, unless a detection is
matched to it before or just then: it is seen again under its number. A tentative track that is missed is
gone at once.
-/

namespace PrivateFootage

namespace Track

variable {α : Type}

/-- The track after frames in which nothing happened to it. -/
def coasted (frames : ℕ) (track : Track α) : Track α :=
  { track with age := track.age + frames }

/-- A frame adds one to the age. -/
theorem age_older (track : Track α) : track.older.age = track.age + 1 := rfl

/-- The first frame is counted like the others. -/
theorem coasted_older (frames : ℕ) (track : Track α) :
    track.older.coasted frames = track.coasted (frames + 1) := by
  simp only [coasted, older, Nat.add_assoc, Nat.add_comm 1]

end Track

namespace Tracker

variable {α : Type} [Analytic α] {settings : TrackerSettings α} {tracker : Tracker α} {track : Track α}
  {detections : List (Detection α)} {rounds : List (List (Detection α))} {id : ℕ}

/-- In none of the rounds to come is a detection matched to the track with a number. -/
def MissedIn (tracker : Tracker α) (id : ℕ) : List (List (Detection α)) → Prop
  | [] => True
  | detections :: rounds =>
    ¬tracker.predict.Matches detections id ∧ (tracker.step detections).MissedIn id rounds

/-! ### One round -/

omit [Analytic α] in
/-- A track has aged when a frame has passed. -/
theorem older_mem_predict (htrack : track ∈ tracker.tracks) : track.older ∈ tracker.predict.tracks :=
  List.mem_map_of_mem htrack

/-- A confirmed track that is missed and young enough has only aged. -/
theorem Numbered.older_mem_step (htracker : tracker.Numbered) (htrack : track ∈ tracker.tracks)
    (hconfirmed : track.standing = .confirmed) (hmissed : ¬tracker.predict.Matches detections track.id)
    (hyoung : track.age < tracker.settings.maxAge) : track.older ∈ (tracker.step detections).tracks := by
  have hsurvives : track.older.survives tracker.settings = true := by
    simp only [Track.survives, Bool.and_eq_true, decide_eq_true_eq]
    exact ⟨hconfirmed, hyoung⟩
  refine mem_tracks_update_iff.mpr (.inr ?_)
  exact (htracker.perform .predict).keeps_of_not_matches (older_mem_predict htrack) hmissed hsurvives

/-- A track that is missed when it is at the limit of its age is gone, and so is its number. -/
theorem Numbered.retired_step (htracker : tracker.Numbered) (htrack : track ∈ tracker.tracks)
    (hmissed : ¬tracker.predict.Matches detections track.id) (hold : tracker.settings.maxAge ≤ track.age) :
    (tracker.step detections).Retired track.id := by
  have hpredicted : tracker.predict.Numbered := htracker.perform .predict
  refine ⟨Nat.lt_add_right _ (htracker.lt_nextId _ (List.mem_map_of_mem htrack)), ?_⟩
  exact (hpredicted.notMem_ids_update_iff (older_mem_predict htrack)).mpr
    ⟨hmissed, .inr (Nat.lt_succ_of_le hold)⟩

/-! ### Many rounds -/

/-- A confirmed track that is missed only ages while it is young enough. -/
theorem Numbered.coasted_mem (htracker : tracker.Numbered) (htrack : track ∈ tracker.tracks)
    (hconfirmed : track.standing = .confirmed) (hmissed : tracker.MissedIn track.id rounds)
    (hyoung : track.age + rounds.length ≤ tracker.settings.maxAge) :
    track.coasted rounds.length ∈ (rounds.foldl Tracker.step tracker).tracks := by
  induction rounds generalizing tracker track with
  | nil => exact htrack
  | cons detections rounds ih =>
    obtain ⟨hfirst, hrest⟩ := hmissed
    rw [List.length_cons] at hyoung ⊢
    have holder := htracker.older_mem_step htrack hconfirmed hfirst (by omega)
    have hage : track.older.age + rounds.length ≤ tracker.settings.maxAge := by
      rw [Track.age_older]
      omega
    have hlater := ih (htracker.step detections) holder hconfirmed hrest hage
    rwa [Track.coasted_older] at hlater

/-- A confirmed track that is missed is gone when it is too old. -/
theorem Numbered.retired_of_missed (htracker : tracker.Numbered) (htrack : track ∈ tracker.tracks)
    (hconfirmed : track.standing = .confirmed) (hmissed : tracker.MissedIn track.id rounds)
    (hyoung : track.age ≤ tracker.settings.maxAge)
    (hold : tracker.settings.maxAge < track.age + rounds.length) :
    (rounds.foldl Tracker.step tracker).Retired track.id := by
  induction rounds generalizing tracker track with
  | nil => exact absurd hold hyoung.not_gt
  | cons detections rounds ih =>
    obtain ⟨hfirst, hrest⟩ := hmissed
    rw [List.length_cons] at hold
    -- The track is at its limit now, or it is older and still there after the first round.
    rcases hyoung.lt_or_eq with hlt | heq
    · have holder := htracker.older_mem_step htrack hconfirmed hfirst hlt
      have hage : tracker.settings.maxAge < track.older.age + rounds.length := by
        rw [Track.age_older]
        omega
      have hretired := ih (htracker.step detections) holder hconfirmed hrest hlt hage
      exact hretired
    · exact (htracker.retired_step htrack hfirst heq.ge).foldl_step rounds

/-- A confirmed track to which a detection is matched is seen, at the box of the detection. -/
theorem mem_visible_of_matched {pair : Candidate α}
    (hpair : pair ∈ Candidate.matched tracker.predict detections)
    (htrack : tracker.predict.tracks[pair.track]? = some track) (hconfirmed : track.standing = .confirmed) :
    ⟨track.id, pair.detection.box⟩ ∈ (tracker.step detections).visible := by
  have hstanding : (track.hit tracker.settings pair.detection).standing = .confirmed := by
    rw [Track.standing_hit, hconfirmed, ite_self]
  exact mem_visible.mpr ⟨_, mem_tracks_update_iff.mpr (.inl ⟨_, .hit hpair htrack⟩), hstanding, rfl, rfl⟩

section Missed

variable {now : Track α} (htracker : tracker.Numbered) (htrack : track ∈ tracker.tracks)
  (hconfirmed : track.standing = .confirmed) (hage : track.age = 0) (hmissed : tracker.MissedIn track.id rounds)

include htracker htrack hconfirmed hage hmissed

/-- A confirmed track that was hit just now is there after as many missed rounds as are allowed. -/
theorem Numbered.mem_of_missed (hle : rounds.length ≤ tracker.settings.maxAge) :
    { track with age := rounds.length } ∈ (rounds.foldl Tracker.step tracker).tracks := by
  have hcoasted := htracker.coasted_mem htrack hconfirmed hmissed (by omega)
  rwa [Track.coasted, hage, Nat.zero_add] at hcoasted

/-- A confirmed track that was hit just now is gone after more missed rounds than are allowed. -/
theorem Numbered.le_of_missed (hid : track.id ∈ (rounds.foldl Tracker.step tracker).ids) :
    rounds.length ≤ tracker.settings.maxAge := by
  by_contra hlt
  exact (htracker.retired_of_missed htrack hconfirmed hmissed (by omega) (by omega)).notMem hid

/-- While it is there, a track that is missed has only aged. -/
theorem Numbered.eq_of_missed (hnow : now ∈ (rounds.foldl Tracker.step tracker).tracks)
    (hid : now.id = track.id) : now = { track with age := rounds.length } := by
  have hle := htracker.le_of_missed htrack hconfirmed hage hmissed (hid ▸ List.mem_map_of_mem hnow)
  obtain ⟨position, hposition⟩ := List.mem_iff_getElem?.mp hnow
  obtain ⟨position', hposition'⟩ :=
    List.mem_iff_getElem?.mp (htracker.mem_of_missed htrack hconfirmed hage hmissed hle)
  exact ((htracker.foldl_step rounds).position_eq_of_id_eq hposition hposition' hid).2

end Missed

/-! ### The whole of it -/

/-- What has become of a track after rounds in which it was missed: it is there exactly if there were no more
of them than the settings allow; if it is there it has only aged, and in the next frame its age is one more
than allowed at most; it is not seen; and if a detection is matched to it in the round that follows, it is
seen under its number at the box of that detection. -/
structure Coasts (settings : TrackerSettings α) (later : Tracker α) (track : Track α) (rounds : ℕ) : Prop where
  live_iff : track.id ∈ later.ids ↔ rounds ≤ settings.maxAge
  unchanged : ∀ now ∈ later.tracks, now.id = track.id → now = { track with age := rounds }
  age_le : ∀ next ∈ later.predict.tracks, next.id = track.id → next.age ≤ settings.maxAge + 1
  unseen : ∀ sighting ∈ later.visible, sighting.id ≠ track.id
  returns : ∀ detections, ∀ pair ∈ Candidate.matched later.predict detections,
    later.predict.ids[pair.track]? = some track.id →
      ⟨track.id, pair.detection.box⟩ ∈ (later.step detections).visible

/-- A confirmed track that was hit just now and is then missed coasts. -/
theorem Numbered.coasts (htracker : tracker.Numbered) (htrack : track ∈ tracker.tracks)
    (hconfirmed : track.standing = .confirmed) (hage : track.age = 0) (hrounds : rounds ≠ [])
    (hmissed : tracker.MissedIn track.id rounds) :
    Coasts tracker.settings (rounds.foldl Tracker.step tracker) track rounds.length := by
  have hunchanged : ∀ now ∈ (rounds.foldl Tracker.step tracker).tracks, now.id = track.id →
      now = { track with age := rounds.length } :=
    fun now => htracker.eq_of_missed htrack hconfirmed hage hmissed
  refine ⟨⟨?_, ?_⟩, hunchanged, ?_, ?_, ?_⟩
  · exact htracker.le_of_missed htrack hconfirmed hage hmissed
  · exact fun hle => List.mem_map.mpr ⟨_, htracker.mem_of_missed htrack hconfirmed hage hmissed hle, rfl⟩
  · intro next hnext hid
    obtain ⟨now, hnow, rfl⟩ := List.mem_map.mp hnext
    have hlive : track.id ∈ (rounds.foldl Tracker.step tracker).ids := List.mem_map.mpr ⟨now, hnow, hid⟩
    rw [hunchanged now hnow hid]
    exact Nat.succ_le_succ (htracker.le_of_missed htrack hconfirmed hage hmissed hlive)
  · intro sighting hsighting hid
    obtain ⟨now, hnow, -, hzero, rfl⟩ := mem_visible.mp hsighting
    rw [hunchanged now hnow hid] at hzero
    exact hrounds (List.length_eq_zero_iff.mp hzero)
  · intro detections pair hpair hid
    obtain ⟨older, holder, hid⟩ := getElem?_ids_eq_some_iff.mp hid
    obtain ⟨now, hnow, rfl⟩ := List.mem_map.mp (List.mem_of_getElem? holder)
    have hstanding : now.standing = .confirmed := by
      rw [hunchanged now hnow hid]
      exact hconfirmed
    rw [← hid]
    exact mem_visible_of_matched hpair holder hstanding

/-- After every run of calls, a confirmed track that was hit just now coasts through the rounds in which it is
missed: it is there for as many as the settings allow and for no more. A tentative track that is missed in
one update is gone. -/
theorem missed_tracks_of_run (settings : TrackerSettings α) (calls : List (Call α)) :
    (∀ track ∈ (after settings calls).tracks, track.standing = .confirmed → track.age = 0 →
      ∀ rounds, rounds ≠ [] → (after settings calls).MissedIn track.id rounds →
        Coasts settings (rounds.foldl Tracker.step (after settings calls)) track rounds.length) ∧
    ∀ track ∈ (after settings calls).tracks, track.standing = .tentative →
      ∀ detections, ¬(after settings calls).Matches detections track.id →
        track.id ∉ ((after settings calls).update detections).ids := by
  have htracker := numbered_after settings calls
  constructor
  · intro track htrack hconfirmed hage rounds hrounds hmissed
    have hcoasts := htracker.coasts htrack hconfirmed hage hrounds hmissed
    rwa [settings_after] at hcoasts
  · intro track htrack htentative detections hmissed
    exact (htracker.notMem_ids_update_iff htrack).mpr ⟨hmissed, .inl htentative⟩

/-- A detection that overlaps nothing. -/
def farBox : Detection Float := ⟨⟨100, 100, 10, 10⟩, 1, []⟩

/-- The detection of two frames in a row. -/
def nearBox : Detection Float := ⟨⟨0, 0, 10, 10⟩, 1, []⟩

/-- The track that two frames with one box confirm. -/
def firmTrack : Track Float := ⟨1, nearBox.box, [], 2, 0, .confirmed⟩

/-- With settings that allow one missed frame, a box that is lost for one frame is found again under its
number, while another box appears, and is given up after the second. Had it been seen once only, it would be
given up after the first. -/
theorem missed_tracks_of_run_one_round :
    (after hastySettings boxFrames).tracks = [firmTrack] ∧
    (after hastySettings boxFrames).MissedIn 1 [[farBox], [farBox]] ∧
    Coasts hastySettings (List.foldl step (after hastySettings boxFrames) [[farBox]]) firmTrack 1 ∧
    1 ∈ (List.foldl step (after hastySettings boxFrames) [[farBox]]).ids ∧
    ⟨1, nearBox.box⟩ ∈ ((List.foldl step (after hastySettings boxFrames) [[farBox]]).step [nearBox]).visible ∧
    1 ∉ (List.foldl step (after hastySettings boxFrames) [[farBox], [farBox]]).ids ∧
    1 ∉ ((after hastySettings (boxFrames.take 2)).update []).ids := by
  have htracks : (after hastySettings boxFrames).tracks = [firmTrack] := by decide +kernel
  have hfirm : firmTrack ∈ (after hastySettings boxFrames).tracks := by simp [htracks]
  have hmissed : (after hastySettings boxFrames).MissedIn 1 [[farBox], [farBox]] :=
    ⟨by decide +kernel, by decide +kernel, trivial⟩
  obtain ⟨hcoasts, -⟩ := missed_tracks_of_run hastySettings boxFrames
  have hone := hcoasts firmTrack hfirm rfl rfl [[farBox]] (List.cons_ne_nil _ _) ⟨hmissed.1, trivial⟩
  have htwo := hcoasts firmTrack hfirm rfl rfl [[farBox], [farBox]] (List.cons_ne_nil _ _) hmissed
  have hreturns := hone.returns [nearBox] ⟨0, 0, 0, nearBox⟩ (by decide +kernel) (by decide +kernel)
  obtain ⟨-, hends⟩ := missed_tracks_of_run hastySettings (boxFrames.take 2)
  have hgone := hends ⟨1, nearBox.box, [], 1, 0, .tentative⟩ (by decide +kernel) rfl [] (by decide +kernel)
  refine ⟨htracks, hmissed, hone, hone.live_iff.mpr (by decide +kernel), hreturns, ?_, hgone⟩
  exact mt htwo.live_iff.mp (by decide +kernel)

end Tracker

end PrivateFootage
