import Mathlib
import PrivateFootage.Double
import PrivateFootage.Track.Update

/-!
# The life of a track

A tracker is asked to let frames pass and to take detections, in any order and any number of times. A call
leaves a track as it is, lets it age, has it hit by a detection, ends it, or starts a new one under the next
number. From this one account of a call follows what holds after every run of calls: numbers rise in the
order of the tracks and never come back, and a track is confirmed exactly if it was hit often enough. An
update also leaves no track behind that it should have ended.

Nothing is assumed about how detections are matched to tracks, save that a position in the list stands for
one track.
-/

namespace PrivateFootage

namespace Track

variable {α : Type} {settings : TrackerSettings α} {track : Track α}

/-- The track one frame later. -/
def older (track : Track α) : Track α := { track with age := track.age + 1 }

/-- A track has been hit, and its standing is known from its hits. A new track is tentative, so a single hit
never confirms one. -/
structure Sound (settings : TrackerSettings α) (track : Track α) : Prop where
  hits_pos : 1 ≤ track.hits
  standing_eq : track.standing = if max settings.hitsToConfirm 2 ≤ track.hits then .confirmed else .tentative

/-- A new track is sound. -/
theorem sound_start (settings : TrackerSettings α) (id : ℕ) (detection : Detection α) :
    (start id detection).Sound settings := by
  have hone : ¬max settings.hitsToConfirm 2 ≤ 1 := by omega
  exact ⟨le_rfl, (if_neg hone).symm⟩

/-- A frame that passes leaves a track sound. -/
theorem Sound.older (htrack : track.Sound settings) : track.older.Sound settings :=
  ⟨htrack.hits_pos, htrack.standing_eq⟩

/-- A hit is counted. -/
theorem hits_hit (settings : TrackerSettings α) (detection : Detection α) (track : Track α) :
    (track.hit settings detection).hits = track.hits + 1 := rfl

/-- Enough hits confirm a track. -/
theorem standing_hit (settings : TrackerSettings α) (detection : Detection α) (track : Track α) :
    (track.hit settings detection).standing =
      if settings.hitsToConfirm ≤ track.hits + 1 then .confirmed else track.standing := rfl

/-- A hit leaves a track sound. -/
theorem Sound.hit (htrack : track.Sound settings) (detection : Detection α) :
    (track.hit settings detection).Sound settings := by
  have hhits := htrack.hits_pos
  refine ⟨Nat.le_add_left _ _, ?_⟩
  rw [standing_hit, hits_hit]
  by_cases hconfirms : settings.hitsToConfirm ≤ track.hits + 1
  · rw [if_pos hconfirms, if_pos (by omega)]
  · rw [if_neg hconfirms, htrack.standing_eq, if_neg (by omega), if_neg (by omega)]

end Track

namespace Tracker

variable {α : Type} [Analytic α] {settings : TrackerSettings α} {tracker : Tracker α} {track : Track α}
  {matched : List (Candidate α)} {detections : List (Detection α)} {placed : Track α × ℕ}

/-! ### What an update does -/

omit [Analytic α] in
/-- A track that is carried over was hit by a detection that was matched to it, or it survives unmatched. -/
theorem carry_eq_some (hcarry : carry settings matched placed = some track) :
    (∃ candidate ∈ matched, candidate.track = placed.2 ∧
      track = placed.1.hit settings candidate.detection) ∨
    ((∀ candidate ∈ matched, candidate.track ≠ placed.2) ∧ placed.1.survives settings = true ∧
      track = placed.1) := by
  unfold carry carryWith at hcarry
  split at hcarry
  · next candidate hfound =>
    have hposition := List.find?_some hfound
    rw [decide_eq_true_eq] at hposition
    exact .inl ⟨candidate, List.mem_of_find?_eq_some hfound, hposition, (Option.some.inj hcarry).symm⟩
  · next hnone =>
    have hunmatched : ∀ candidate ∈ matched, candidate.track ≠ placed.2 := by
      simpa using List.find?_eq_none.mp hnone
    split_ifs at hcarry with hsurvives
    exact .inr ⟨hunmatched, hsurvives, (Option.some.inj hcarry).symm⟩

omit [Analytic α] in
/-- A track keeps its number. -/
theorem id_of_carry (hcarry : carry settings matched placed = some track) : track.id = placed.1.id := by
  rcases carry_eq_some hcarry with ⟨candidate, -, -, rfl⟩ | ⟨-, -, rfl⟩ <;> rfl

/-- The numbers of the tracks, in order. -/
def ids (tracker : Tracker α) : List ℕ := tracker.tracks.map Track.id

/-- The number of tracks that an update starts. -/
def startedCount (tracker : Tracker α) (detections : List (Detection α)) : ℕ :=
  (unmatched (Candidate.matched tracker detections) detections).length

/-- A track is in place after an update because it was carried over or because it was started. -/
theorem mem_tracks_update (htrack : track ∈ (tracker.update detections).tracks) :
    (∃ placed ∈ tracker.tracks.zipIdx,
      carry tracker.settings (Candidate.matched tracker detections) placed = some track) ∨
    ∃ offset detection, track = Track.start (tracker.nextId + offset) detection := by
  rcases List.mem_append.mp htrack with hcarried | hstarted
  · exact .inl (List.mem_filterMap.mp hcarried)
  · obtain ⟨⟨detection, offset⟩, -, rfl⟩ := List.mem_map.mp hstarted
    exact .inr ⟨offset, detection, rfl⟩

omit [Analytic α] in
/-- The numbers of the tracks that are carried over are some of the old ones, in order. -/
theorem sublist_ids_carried (settings : TrackerSettings α) (matched : List (Candidate α))
    (tracks : List (Track α)) (first : ℕ) :
    (((tracks.zipIdx first).filterMap (carry settings matched)).map Track.id).Sublist
      (tracks.map Track.id) := by
  induction tracks generalizing first with
  | nil => exact List.Sublist.refl _
  | cons head tracks ih =>
    rw [List.zipIdx_cons, List.filterMap_cons, List.map_cons]
    cases hcarry : carry settings matched (head, first) with
    | none => exact (ih (first + 1)).cons _
    | some carried =>
      rw [List.map_cons, id_of_carry hcarry]
      exact (ih (first + 1)).cons_cons _

/-- An update keeps some of the numbers and gives the next ones to the tracks that it starts. -/
theorem ids_update (tracker : Tracker α) (detections : List (Detection α)) :
    ∃ kept, kept.Sublist tracker.ids ∧ (tracker.update detections).ids =
      kept ++ List.range' tracker.nextId (tracker.startedCount detections) := by
  refine ⟨_, sublist_ids_carried tracker.settings (Candidate.matched tracker detections) tracker.tracks 0, ?_⟩
  dsimp only [ids, update, updateWith]
  rw [List.map_append, List.map_map, startedCount]
  congr 1
  refine List.ext_getElem (by simp) fun position _ _ => ?_
  simp [Track.start]

/-! ### Calls and runs -/

/-- What is asked of a tracker. -/
inductive Call (α : Type) where
  | predict
  | update (detections : List (Detection α))

/-- The tracker after a call. -/
def perform (tracker : Tracker α) : Call α → Tracker α
  | .predict => tracker.predict
  | .update detections => tracker.update detections

/-- The tracker after a run of calls. -/
def after (settings : TrackerSettings α) (calls : List (Call α)) : Tracker α :=
  calls.foldl perform (initial settings)

/-- Where a track comes from that is in place after a call. -/
inductive Arises (tracker : Tracker α) : Track α → Prop
  | aged {earlier : Track α} (hearlier : earlier ∈ tracker.tracks) : Arises tracker earlier.older
  | hit {earlier : Track α} (hearlier : earlier ∈ tracker.tracks) (detection : Detection α) :
    Arises tracker (earlier.hit tracker.settings detection)
  | kept {earlier : Track α} (hearlier : earlier ∈ tracker.tracks) : Arises tracker earlier
  | started (id : ℕ) (detection : Detection α) : Arises tracker (Track.start id detection)

/-- After a call, a track has aged, was hit, is as it was, or is new. -/
theorem arises_of_mem_perform {call : Call α} (htrack : track ∈ (tracker.perform call).tracks) :
    tracker.Arises track := by
  cases call with
  | predict =>
    obtain ⟨earlier, hearlier, rfl⟩ := List.mem_map.mp htrack
    exact .aged hearlier
  | update detections =>
    rcases mem_tracks_update htrack with ⟨placed, hplaced, hcarry⟩ | ⟨offset, detection, rfl⟩
    · have hearlier := List.fst_mem_of_mem_zipIdx hplaced
      rcases carry_eq_some hcarry with ⟨candidate, -, -, rfl⟩ | ⟨-, -, rfl⟩
      · exact .hit hearlier candidate.detection
      · exact .kept hearlier
    · exact .started _ detection

/-- A call keeps some of the numbers, and gives the next ones to new tracks. -/
theorem ids_perform (tracker : Tracker α) (call : Call α) :
    ∃ kept count, kept.Sublist tracker.ids ∧
      (tracker.perform call).ids = kept ++ List.range' tracker.nextId count ∧
      (tracker.perform call).nextId = tracker.nextId + count := by
  cases call with
  | predict =>
    refine ⟨tracker.ids, 0, List.Sublist.refl _, ?_, rfl⟩
    simp [perform, predict, predictWith, ids, Function.comp_def]
  | update detections =>
    obtain ⟨kept, hkept, hids⟩ := ids_update tracker detections
    exact ⟨kept, tracker.startedCount detections, hkept, hids, rfl⟩

/-- A call leaves the settings as they are. -/
theorem settings_perform (tracker : Tracker α) (call : Call α) :
    (tracker.perform call).settings = tracker.settings := by
  cases call <;> rfl

/-- What every call keeps is kept by every run. -/
theorem foldl_perform_induction {motive : Tracker α → Prop} (hstart : motive tracker)
    (hstep : ∀ tracker call, motive tracker → motive (tracker.perform call)) (calls : List (Call α)) :
    motive (calls.foldl perform tracker) := by
  induction calls generalizing tracker with
  | nil => exact hstart
  | cons call calls ih => exact ih (hstep tracker call hstart)

/-- A run of calls leaves the settings as they are. -/
theorem settings_after (settings : TrackerSettings α) (calls : List (Call α)) :
    (after settings calls).settings = settings :=
  foldl_perform_induction (motive := fun tracker => tracker.settings = settings) rfl
    (fun tracker call htracker => (settings_perform tracker call).trans htracker) calls

/-- The calls of rounds in each of which a frame passes and its detections are taken. -/
def roundCalls (rounds : List (List (Detection α))) : List (Call α) :=
  rounds.flatMap fun detections => [.predict, .update detections]

/-- Rounds are runs of calls. -/
theorem foldl_step_eq (tracker : Tracker α) (rounds : List (List (Detection α))) :
    rounds.foldl step tracker = (roundCalls rounds).foldl perform tracker := by
  induction rounds generalizing tracker with
  | nil => rfl
  | cons detections rounds ih => exact ih (tracker.step detections)

/-- A run in two parts. -/
theorem after_append (settings : TrackerSettings α) (first second : List (Call α)) :
    after settings (first ++ second) = second.foldl perform (after settings first) :=
  List.foldl_append

/-! ### Numbers -/

/-- The numbers of the tracks rise, start from one and have all been given out. -/
structure Numbered (tracker : Tracker α) : Prop where
  increasing : tracker.ids.Pairwise (· < ·)
  one_le : ∀ id ∈ tracker.ids, 1 ≤ id
  lt_nextId : ∀ id ∈ tracker.ids, id < tracker.nextId
  one_le_nextId : 1 ≤ tracker.nextId

/-- A call leaves the tracks numbered. -/
theorem Numbered.perform (htracker : tracker.Numbered) (call : Call α) :
    (tracker.perform call).Numbered := by
  obtain ⟨kept, count, hkept, hids, hnext⟩ := ids_perform tracker call
  have hnew : ∀ id ∈ List.range' tracker.nextId count,
      tracker.nextId ≤ id ∧ id < tracker.nextId + count := fun id => List.mem_range'_1.mp
  refine ⟨?_, ?_, ?_, ?_⟩
  · rw [hids, List.pairwise_append]
    refine ⟨htracker.increasing.sublist hkept, List.pairwise_lt_range', fun old hold new hmem => ?_⟩
    exact (htracker.lt_nextId old (hkept.subset hold)).trans_le (hnew new hmem).1
  · intro id hid
    rw [hids, List.mem_append] at hid
    rcases hid with hold | hmem
    · exact htracker.one_le id (hkept.subset hold)
    · exact htracker.one_le_nextId.trans (hnew id hmem).1
  · intro id hid
    rw [hids, List.mem_append] at hid
    rw [hnext]
    rcases hid with hold | hmem
    · exact Nat.lt_add_right _ (htracker.lt_nextId id (hkept.subset hold))
    · exact (hnew id hmem).2
  · rw [hnext]
    exact Nat.le_add_right_of_le htracker.one_le_nextId

/-- The tracks are numbered after every run. -/
theorem numbered_after (settings : TrackerSettings α) (calls : List (Call α)) :
    (after settings calls).Numbered := by
  have hinitial : (initial settings).Numbered :=
    ⟨List.Pairwise.nil, by simp [ids, initial], by simp [ids, initial], le_rfl⟩
  exact foldl_perform_induction hinitial (fun _ call htracker => htracker.perform call) calls

/-- A round leaves the tracks numbered. -/
theorem Numbered.step (htracker : tracker.Numbered) (detections : List (Detection α)) :
    (tracker.step detections).Numbered :=
  (htracker.perform .predict).perform (.update detections)

/-- Rounds leave the tracks numbered. -/
theorem Numbered.foldl_step (htracker : tracker.Numbered) (rounds : List (List (Detection α))) :
    (rounds.foldl Tracker.step tracker).Numbered := by
  rw [foldl_step_eq]
  exact foldl_perform_induction htracker (fun _ call hnumbered => hnumbered.perform call) _

/-- A number that was given out and has no track. -/
structure Retired (tracker : Tracker α) (id : ℕ) : Prop where
  lt_nextId : id < tracker.nextId
  notMem : id ∉ tracker.ids

/-- A call gives no track to a number that has retired. -/
theorem Retired.perform {id : ℕ} (hid : tracker.Retired id) (call : Call α) :
    (tracker.perform call).Retired id := by
  obtain ⟨kept, count, hkept, hids, hnext⟩ := ids_perform tracker call
  refine ⟨hnext ▸ Nat.lt_add_right _ hid.lt_nextId, ?_⟩
  rw [hids, List.mem_append, not_or]
  refine ⟨fun hold => hid.notMem (hkept.subset hold), fun hmem => ?_⟩
  exact absurd (List.mem_range'_1.mp hmem).1 hid.lt_nextId.not_ge

/-- A number that has retired stays so. -/
theorem Retired.foldl_perform {id : ℕ} (hid : tracker.Retired id) (calls : List (Call α)) :
    (calls.foldl Tracker.perform tracker).Retired id :=
  foldl_perform_induction (motive := fun later => later.Retired id) hid
    (fun _ call hretired => hretired.perform call) calls

/-- A number that has retired stays so in all rounds. -/
theorem Retired.foldl_step {id : ℕ} (hid : tracker.Retired id) (rounds : List (List (Detection α))) :
    (rounds.foldl Tracker.step tracker).Retired id := by
  rw [foldl_step_eq]
  exact hid.foldl_perform _

/-- Numbers are given out in order, so the next one only rises. -/
theorem nextId_le_foldl_perform (tracker : Tracker α) (calls : List (Call α)) :
    tracker.nextId ≤ (calls.foldl Tracker.perform tracker).nextId := by
  refine foldl_perform_induction (motive := fun later => tracker.nextId ≤ later.nextId) le_rfl
    (fun later call hlater => ?_) calls
  obtain ⟨-, count, -, -, hnext⟩ := ids_perform later call
  rw [hnext]
  exact Nat.le_add_right_of_le hlater

/-! ### Hits and standing -/

/-- Every track is sound after every run. -/
theorem sound_after (calls : List (Call α)) (htrack : track ∈ (after settings calls).tracks) :
    track.Sound settings := by
  have hall : (after settings calls).settings = settings ∧
      ∀ track ∈ (after settings calls).tracks, track.Sound settings := by
    refine foldl_perform_induction
      (motive := fun tracker => tracker.settings = settings ∧ ∀ track ∈ tracker.tracks, track.Sound settings)
      ⟨rfl, by simp [initial]⟩ ?_ calls
    intro tracker call htracker
    obtain ⟨rfl, hsound⟩ := htracker
    refine ⟨settings_perform tracker call, fun track htrack => ?_⟩
    cases arises_of_mem_perform htrack with
    | aged hearlier => exact (hsound _ hearlier).older
    | hit hearlier detection => exact (hsound _ hearlier).hit detection
    | kept hearlier => exact hsound _ hearlier
    | started id detection => exact Track.sound_start tracker.settings id detection
  exact hall.2 track htrack

/-- No counter of a track exceeds a number of calls. -/
def CountsWithin (tracker : Tracker α) (calls : ℕ) : Prop :=
  ∀ track ∈ tracker.tracks, track.hits ≤ calls ∧ track.age ≤ calls

/-- A call raises a counter by one at most. -/
theorem CountsWithin.perform {calls : ℕ} (htracker : tracker.CountsWithin calls) (call : Call α) :
    (tracker.perform call).CountsWithin (calls + 1) := by
  intro track htrack
  cases arises_of_mem_perform htrack with
  | aged hearlier =>
    exact ⟨Nat.le_add_right_of_le (htracker _ hearlier).1, Nat.succ_le_succ (htracker _ hearlier).2⟩
  | hit hearlier detection => exact ⟨Nat.succ_le_succ (htracker _ hearlier).1, Nat.zero_le _⟩
  | kept hearlier =>
    exact ⟨Nat.le_add_right_of_le (htracker _ hearlier).1, Nat.le_add_right_of_le (htracker _ hearlier).2⟩
  | started id detection => exact ⟨Nat.le_add_left _ _, Nat.zero_le _⟩

/-- No counter of a track exceeds the number of calls. -/
theorem countsWithin_after (settings : TrackerSettings α) (calls : List (Call α)) :
    (after settings calls).CountsWithin calls.length := by
  induction calls using List.reverseRecOn with
  | nil => simp [CountsWithin, after, initial]
  | append_singleton calls call ih =>
    rw [after_append, List.length_append]
    exact ih.perform call

/-! ### After an update -/

/-- A tracker that has just taken detections: a tentative track was hit or started, and a track that was not
is confirmed and not too old. -/
structure Settled (settings : TrackerSettings α) (tracker : Tracker α) : Prop where
  age_of_tentative : ∀ track ∈ tracker.tracks, track.standing = .tentative → track.age = 0
  confirmed_of_age : ∀ track ∈ tracker.tracks, 0 < track.age →
    track.standing = .confirmed ∧ track.age ≤ settings.maxAge

/-- An update leaves a tracker settled, whatever it was before. -/
theorem settled_update (tracker : Tracker α) (detections : List (Detection α)) :
    (tracker.update detections).Settled tracker.settings := by
  have hcases : ∀ track ∈ (tracker.update detections).tracks,
      track.age = 0 ∨ track.standing = .confirmed ∧ track.age ≤ tracker.settings.maxAge := by
    intro track htrack
    rcases mem_tracks_update htrack with ⟨placed, -, hcarry⟩ | ⟨offset, detection, rfl⟩
    · rcases carry_eq_some hcarry with ⟨candidate, -, -, rfl⟩ | ⟨-, hsurvives, rfl⟩
      · exact .inl rfl
      · refine .inr ?_
        simpa [Track.survives] using hsurvives
    · exact .inl rfl
  constructor
  · intro track htrack htentative
    rcases hcases track htrack with hage | ⟨hconfirmed, -⟩
    · exact hage
    · rw [htentative] at hconfirmed
      cases hconfirmed
  · intro track htrack hage
    exact (hcases track htrack).resolve_left hage.ne'

omit [Analytic α] in
/-- A number stands for one position. -/
theorem Numbered.eq_of_id_eq (htracker : tracker.Numbered) {other : Track α × ℕ}
    (hplaced : placed ∈ tracker.tracks.zipIdx) (hother : other ∈ tracker.tracks.zipIdx)
    (hid : other.1.id = placed.1.id) : other = placed := by
  rw [List.mem_zipIdx_iff_getElem?] at hplaced hother
  have hids : tracker.ids[other.2]? = tracker.ids[placed.2]? := by
    rw [ids, List.getElem?_map, List.getElem?_map, hother, hplaced, Option.map_some, Option.map_some, hid]
  have hbound : other.2 < tracker.ids.length := by
    rw [ids, List.length_map]
    exact (List.getElem?_eq_some_iff.mp hother).1
  have hposition := (List.getElem?_inj hbound htracker.increasing.nodup).mp hids
  rw [hposition, hplaced] at hother
  exact Prod.ext (Option.some.inj hother).symm hposition

/-- A track that is not matched and does not survive is ended by an update. -/
theorem Numbered.notMem_ids_update (htracker : tracker.Numbered) (hplaced : placed ∈ tracker.tracks.zipIdx)
    (hunmatched : ∀ candidate ∈ Candidate.matched tracker detections, candidate.track ≠ placed.2)
    (hends : placed.1.standing = .tentative ∨ tracker.settings.maxAge < placed.1.age) :
    placed.1.id ∉ (tracker.update detections).ids := by
  intro hid
  obtain ⟨track, htrack, hsame⟩ := List.mem_map.mp hid
  rcases mem_tracks_update htrack with ⟨other, hother, hcarry⟩ | ⟨offset, detection, rfl⟩
  · obtain rfl := htracker.eq_of_id_eq hplaced hother ((id_of_carry hcarry).symm.trans hsame)
    rcases carry_eq_some hcarry with ⟨candidate, hcandidate, hposition, -⟩ | ⟨-, hsurvives, -⟩
    · exact hunmatched candidate hcandidate hposition
    · simp only [Track.survives, Bool.and_eq_true, decide_eq_true_eq] at hsurvives
      rcases hends with htentative | hage
      · rw [htentative] at hsurvives
        cases hsurvives.1
      · exact hage.not_ge hsurvives.2
  · have hold := htracker.lt_nextId placed.1.id
      (List.mem_map_of_mem (List.fst_mem_of_mem_zipIdx hplaced))
    rw [← hsame] at hold
    exact absurd hold (Nat.le_add_right tracker.nextId offset).not_gt

/-! ### The whole of it -/

/-- The life of tracks over every run of calls. Numbers rise in the order of the tracks and have all been
given out, and the number of a track that has ended never comes back. A track is confirmed if it was hit
often enough, at least twice, and is tentative otherwise. No counter exceeds the number of calls, so 32 bits
hold the counters of every run of fewer than `2 ^ 32` calls. Right after an update, a tentative track was
just hit, a track that was not is confirmed and young enough, and the unmatched tracks that are tentative or
too old are gone. -/
theorem lifecycle_of_run (settings : TrackerSettings α) (calls : List (Call α)) :
    (after settings calls).Numbered ∧
    (∀ track ∈ (after settings calls).tracks, track.Sound settings) ∧
    (after settings calls).CountsWithin calls.length ∧
    (∀ more later, ∀ id ∈ (after settings calls).ids, id ∉ (after settings (calls ++ more)).ids →
      id ∉ (after settings (calls ++ more ++ later)).ids) ∧
    ∀ detections, (after settings (calls ++ [.update detections])).Settled settings ∧
      ∀ placed ∈ (after settings calls).tracks.zipIdx,
        (∀ candidate ∈ Candidate.matched (after settings calls) detections, candidate.track ≠ placed.2) →
        (placed.1.standing = .tentative ∨ settings.maxAge < placed.1.age) →
        placed.1.id ∉ (after settings (calls ++ [.update detections])).ids := by
  have hsettings := settings_after settings calls
  have hnumbered := numbered_after settings calls
  refine ⟨hnumbered, fun track htrack => sound_after calls htrack, countsWithin_after settings calls, ?_, ?_⟩
  · intro more later id hlive hgone
    rw [after_append] at hgone
    have hretired : (more.foldl perform (after settings calls)).Retired id :=
      ⟨(hnumbered.lt_nextId id hlive).trans_le (nextId_le_foldl_perform _ more), hgone⟩
    rw [after_append, after_append]
    exact (hretired.foldl_perform later).notMem
  · intro detections
    rw [after_append]
    refine ⟨?_, fun placed hplaced hunmatched hends => ?_⟩
    · have hsettled := settled_update (after settings calls) detections
      rw [hsettings] at hsettled
      exact hsettled
    · rw [← hsettings] at hends
      exact hnumbered.notMem_ids_update hplaced hunmatched hends

/-- Settings that confirm a track with two hits and forget it after one missed frame. -/
def hastySettings : TrackerSettings Float := ⟨0.5, 0.7, 1, 2⟩

/-- Two frames with the same box. -/
def boxFrames : List (Call Float) :=
  [.predict, .update [⟨⟨0, 0, 10, 10⟩, 1, []⟩], .predict, .update [⟨⟨0, 0, 10, 10⟩, 1, []⟩]]

/-- Two frames without detections. -/
def blankFrames : List (Call Float) :=
  [.predict, .update [], .predict, .update []]

/-- A box that is lost for two frames is found under a new number. -/
theorem lifecycle_of_run_lost_box :
    (after hastySettings boxFrames).ids = [1] ∧
    (after hastySettings (boxFrames ++ blankFrames)).ids = [] ∧
    (after hastySettings (boxFrames ++ blankFrames ++ boxFrames)).ids = [2] ∧
    1 ∉ (after hastySettings (boxFrames ++ blankFrames ++ boxFrames)).ids := by
  have hfirst : (after hastySettings boxFrames).ids = [1] := by decide +kernel
  have hlost : (after hastySettings (boxFrames ++ blankFrames)).ids = [] := by decide +kernel
  have hfound : (after hastySettings (boxFrames ++ blankFrames ++ boxFrames)).ids = [2] := by decide +kernel
  obtain ⟨-, -, -, hnever, -⟩ := lifecycle_of_run hastySettings boxFrames
  exact ⟨hfirst, hlost, hfound, hnever blankFrames boxFrames 1 (by simp [hfirst]) (by simp [hlost])⟩

end Tracker

end PrivateFootage
