import Mathlib
import PrivateFootage.Aggregator
import PrivateFootage.Proofs.Track.Following

/-!
# What a count of tracks costs

The objects that are counted in a chunk are the tracks that are ever confirmed in it. A track is confirmed by
hits in as many different frames as the settings ask for, and two at least, and a detection hits one track
only. So the detections of a chunk pay for its count: there are that many times as many of them.
-/

namespace PrivateFootage

/-- Nothing comes twice once duplicates are erased. -/
theorem nodup_eraseDups (ids : List ℕ) : ids.eraseDups.Nodup := by
  induction hlength : ids.length using Nat.strong_induction_on generalizing ids with
  | _ length ih =>
    cases ids with
    | nil => exact List.nodup_nil
    | cons id ids =>
      rw [List.eraseDups_cons, List.nodup_cons]
      refine ⟨by simp, ih _ ?_ _ rfl⟩
      rw [← hlength, List.length_cons]
      exact Nat.lt_succ_of_le (List.length_filter_le _ _)

namespace Tracker

variable {α : Type} [Analytic α] {settings : TrackerSettings α} {frames past : List (List (Detection α))}
  {index position id : ℕ}

/-- The places of all detections: the number of the frame and the position in it. -/
def places (frames : List (List (Detection α))) : List (ℕ × ℕ) :=
  frames.zipIdx.flatMap fun placed => (List.range placed.1.length).map fun position => (placed.2, position)

omit [Analytic α] in
/-- There are as many places as detections. -/
theorem length_places (frames : List (List (Detection α))) : (places frames).length = frames.flatten.length := by
  have hlengths : frames.zipIdx.map (fun placed => placed.1.length) = frames.map List.length := by
    calc frames.zipIdx.map (fun placed => placed.1.length)
        = (frames.zipIdx.map Prod.fst).map List.length := List.map_map.symm
      _ = frames.map List.length := by rw [List.zipIdx_map_fst]
  simp only [places, List.length_flatMap, List.length_map, List.length_range, List.length_flatten, hlengths]

/-- A hit is made at one of the places. -/
theorem HitIn.mem_places (hhit : HitIn settings frames index position id) : (index, position) ∈ places frames := by
  obtain ⟨detections, hframe, hposition⟩ := hhit.exists_frame
  refine List.mem_flatMap.mpr ⟨(detections, index), List.mk_mem_zipIdx_iff_getElem?.mpr hframe, ?_⟩
  exact List.mem_map.mpr ⟨position, List.mem_range.mpr hposition, rfl⟩

/-- A track that is ever confirmed was hit in as many frames as it takes. -/
theorem EverConfirmed.exists_hitFrames (hconfirmed : EverConfirmed settings frames id) :
    ∃ hitFrames : Finset ℕ, max settings.hitsToConfirm 2 ≤ hitFrames.card ∧
      ∀ index ∈ hitFrames, ∃ position, HitIn settings frames index position id := by
  obtain ⟨past, ⟨rest, rfl⟩, track, htrack, rfl, hstanding⟩ := hconfirmed
  obtain ⟨hitFrames, hframes, hcard⟩ := Tracker.exists_hitFrames htrack
  refine ⟨hitFrames, ?_, fun index hindex => ?_⟩
  · rw [following_eq_after] at htrack
    have hsound := (sound_after _ htrack).standing_eq
    rw [hcard]
    by_contra hfew
    rw [if_neg hfew, hstanding] at hsound
    cases hsound
  · obtain ⟨position, hhit⟩ := (hframes index).mp hindex
    exact ⟨position, hhit.append rest⟩

/-- Tracks that are ever confirmed are paid for by detections. -/
theorem card_mul_le_of_everConfirmed {ids : Finset ℕ} (hids : ∀ id ∈ ids, EverConfirmed settings frames id) :
    ids.card * max settings.hitsToConfirm 2 ≤ frames.flatten.length := by
  classical
  -- Count the hits of the tracks: enough for each track, one at most for each detection.
  have hcount : ids.card * max settings.hitsToConfirm 2 ≤ (places frames).toFinset.card * 1 := by
    refine Finset.card_mul_le_card_mul (fun id place => HitIn settings frames place.1 place.2 id)
      (fun id hid => ?_) (fun place _ => ?_)
    · obtain ⟨hitFrames, henough, hhits⟩ := (hids id hid).exists_hitFrames
      refine henough.trans (Finset.card_le_card_of_surjOn Prod.fst fun index hindex => ?_)
      obtain ⟨position, hhit⟩ := hhits index hindex
      refine ⟨(index, position), ?_, rfl⟩
      exact Finset.mem_filter.mpr ⟨List.mem_toFinset.mpr hhit.mem_places, hhit⟩
    · refine Finset.card_le_one.mpr fun id hid id' hid' => ?_
      exact (Finset.mem_filter.mp hid).2.id_eq (Finset.mem_filter.mp hid').2
  rw [Nat.mul_one] at hcount
  exact hcount.trans ((List.toFinset_card_le _).trans (length_places frames).le)

/-- A track that is ever confirmed takes as many frames as hits. -/
theorem EverConfirmed.le_length (hconfirmed : EverConfirmed settings frames id) :
    max settings.hitsToConfirm 2 ≤ frames.length := by
  obtain ⟨hitFrames, henough, hhits⟩ := hconfirmed.exists_hitFrames
  have hwithin : hitFrames ⊆ Finset.range frames.length := by
    intro index hindex
    obtain ⟨position, hhit⟩ := hhits index hindex
    obtain ⟨detections, hframe, -⟩ := hhit.exists_frame
    exact Finset.mem_range.mpr (List.getElem?_eq_some_iff.mp hframe).1
  exact henough.trans ((Finset.card_le_card hwithin).trans (Finset.card_range _).le)

end Tracker

namespace Aggregator

variable {α : Type} [Analytic α] {settings : TrackerSettings α} {frames : List (List (Detection α))} {id : ℕ}

omit [Analytic α] in
/-- Every object is counted once. -/
theorem nodup_identifiers (sightings : List (List (Sighting α))) : (identifiers sightings).Nodup :=
  nodup_eraseDups _

/-- The objects that are counted are the tracks that are ever confirmed. -/
theorem mem_identifiers_iff : id ∈ identifiers (Tracker.sightings settings frames) ↔
    Tracker.EverConfirmed settings frames id := by
  rw [identifiers, List.mem_eraseDups, List.mem_map]
  exact Tracker.exists_mem_sightings_iff

/-- Whatever the filter, the settings and the chunk, the count of tracks is the number of tracks that are ever
confirmed. The hits of a track are the frames in which a detection hit it, so no counter exceeds the number
of frames. Every track that is counted was hit in enough different frames, a detection hits one track only,
and so the detections that pass the filter are as many times more as hits confirm a track, at least two.
Nothing is counted in a chunk of fewer frames than that. -/
theorem count_paid_by_detections (filter : Filter α) (settings : TrackerSettings α) (chunk : Chunk α) :
    ∃ ids : Finset ℕ,
      (∀ id, id ∈ ids ↔ Tracker.EverConfirmed settings (chunk.map filter.apply) id) ∧
      (count filter settings).invoke chunk =
        .ok (.corrected (Scalar.ofNat ids.card) (boundaryCorrection (chunk.map filter.apply))) ∧
      (∀ past, past <+: chunk.map filter.apply →
        (Tracker.following settings past).CountsWithin past.length ∧
        ∀ track ∈ (Tracker.following settings past).tracks, ∃ hitFrames,
          Tracker.AreHitFrames settings past track.id hitFrames ∧ hitFrames.card = track.hits) ∧
      (∀ id ∈ ids, ∃ hitFrames : Finset ℕ, max settings.hitsToConfirm 2 ≤ hitFrames.card ∧
        ∀ index ∈ hitFrames, ∃ position,
          Tracker.HitIn settings (chunk.map filter.apply) index position id) ∧
      (∀ index position id id', Tracker.HitIn settings (chunk.map filter.apply) index position id →
        Tracker.HitIn settings (chunk.map filter.apply) index position id' → id = id') ∧
      ids.card * max settings.hitsToConfirm 2 ≤ (chunk.map filter.apply).flatten.length ∧
      (chunk.length < max settings.hitsToConfirm 2 → ids.card = 0) := by
  have hids : ∀ id, id ∈ (identifiers (Tracker.sightings settings (chunk.map filter.apply))).toFinset ↔
      Tracker.EverConfirmed settings (chunk.map filter.apply) id :=
    fun id => List.mem_toFinset.trans mem_identifiers_iff
  refine ⟨_, hids, ?_, ?_, ?_, ?_, ?_, ?_⟩
  · rw [List.toFinset_card_of_nodup (nodup_identifiers _)]
    rfl
  · exact fun past _ =>
      ⟨Tracker.countsWithin_following settings past, fun track => Tracker.exists_hitFrames⟩
  · exact fun id hid => ((hids id).mp hid).exists_hitFrames
  · exact fun index position id id' => Tracker.HitIn.id_eq
  · exact Tracker.card_mul_le_of_everConfirmed fun id hid => (hids id).mp hid
  · intro hshort
    refine Finset.card_eq_zero.mpr (Finset.eq_empty_of_forall_notMem fun id hid => ?_)
    have henough := ((hids id).mp hid).le_length
    rw [List.length_map] at henough
    exact hshort.not_ge henough

/-- Two frames with one box, of which the second is described further. -/
def steadyChunk : Chunk Float :=
  [[⟨0, 0, ⟨0, 0, 10, 10⟩, 0.9, []⟩], [⟨1, 1, ⟨0, 0, 10, 10⟩, 0.9, [0.5]⟩]]

/-- The detections of the two frames. -/
def steadyFrames : List (List (Detection Float)) := steadyChunk.map Filter.standard.apply

/-- The second frame confirms the track that the first one started, and the first frame alone counts nothing. -/
theorem count_paid_by_detections_two_frames :
    Tracker.HitIn Tracker.hastySettings steadyFrames 1 0 1 ∧
    (∀ id, Tracker.HitIn Tracker.hastySettings steadyFrames 1 0 id → id = 1) ∧
    Tracker.EverConfirmed Tracker.hastySettings steadyFrames 1 ∧
    (count Filter.standard Tracker.hastySettings).invoke (steadyChunk.take 1) = .ok (.corrected 0 1) := by
  have hframe : steadyFrames[1]? = some [⟨⟨0, 0, 10, 10⟩, 0.9, [0.9, 0.5]⟩] := by decide +kernel
  have hpair : (⟨0, 0, 0, ⟨⟨0, 0, 10, 10⟩, 0.9, [0.9, 0.5]⟩⟩ : Candidate Float) ∈
      Candidate.matched (Tracker.following Tracker.hastySettings (steadyFrames.take 1)).predict
        [⟨⟨0, 0, 10, 10⟩, 0.9, [0.9, 0.5]⟩] := by decide +kernel
  have htrack : (Tracker.following Tracker.hastySettings (steadyFrames.take 1)).predict.tracks[0]? =
      some ⟨1, ⟨0, 0, 10, 10⟩, [0.9], 1, 1, .tentative⟩ := by decide +kernel
  have hhit : Tracker.HitIn Tracker.hastySettings steadyFrames 1 0 1 :=
    ⟨_, _, hframe, .hit hpair htrack, rfl⟩
  have hconfirmed : Tracker.EverConfirmed Tracker.hastySettings steadyFrames 1 :=
    ⟨steadyFrames, List.prefix_rfl, ⟨1, ⟨0, 0, 10, 10⟩, [0.9, 0.5], 2, 0, .confirmed⟩, by decide +kernel, rfl, rfl⟩
  obtain ⟨-, -, -, -, -, hone, -⟩ := count_paid_by_detections Filter.standard Tracker.hastySettings steadyChunk
  obtain ⟨ids, -, hinvoke, -, -, -, -, hnothing⟩ :=
    count_paid_by_detections Filter.standard Tracker.hastySettings (steadyChunk.take 1)
  have hzero : (Scalar.ofNat 0 : Float) = 0 := by decide +kernel
  have hcorrection : boundaryCorrection ((steadyChunk.take 1).map Filter.standard.apply) = 1 := by
    decide +kernel
  refine ⟨hhit, fun id hid => hone 1 0 id 1 hid hhit, hconfirmed, ?_⟩
  rw [hinvoke, hnothing (by decide), hzero, hcorrection]

end Aggregator

end PrivateFootage
