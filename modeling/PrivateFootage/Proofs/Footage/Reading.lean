import Mathlib
import PrivateFootage.Footage
import PrivateFootage.Proofs.Chunk.Lockstep
import PrivateFootage.Proofs.Decimation.Words
import PrivateFootage.Proofs.Outcome

/-!
# How far footage is read

Every hour file that can be read gives the same number of frames, however few detections it holds. So
the frames of a recording reach the end, or break off at the file that cannot be read, short of it.
The chunks of one region therefore have a length known beforehand, the same for all regions.
-/

namespace PrivateFootage

variable {α : Type} [Scalar α]

omit [Scalar α] in
/-- An hour has one frame for each index that is sampled. -/
@[simp] theorem length_sampleHour (indices : List ℕ) (rows : List (Row α)) :
    (sampleHour indices rows).length = indices.length := by
  simp [sampleHour]

/-- The frames of hour files go up to the number of sampled frames in all of them. -/
theorem readFrames_readUpTo (store : Store) {indices : List ℕ} (hindices : 0 < indices.length)
    (paths : List String) :
    ReadUpTo (paths.length * indices.length) (readFrames store indices paths : List (Outcome (Frame α))) := by
  induction paths with
  | nil =>
    rw [List.length_nil, Nat.zero_mul]
    exact .done
  | cons path paths ih =>
    rw [readFrames, List.length_cons, Nat.succ_mul, Nat.add_comm]
    cases readHour (α := α) store path with
    | ok rows => simpa using ReadUpTo.append_left (sampleHour indices rows) ih
    | error error =>
      obtain ⟨before, hbefore⟩ := Nat.exists_eq_add_of_lt hindices
      rw [hbefore, Nat.zero_add, Nat.add_right_comm]
      exact .broken error _

/-- A sampling keeps the analysis rate that it is made from. -/
theorem Decimation.analysis_of_ofRates {native analysis : ℕ} {decimation : Decimation}
    (hrates : ofRates native analysis = .ok decimation) : decimation.analysis = analysis := by
  unfold ofRates at hrates
  split at hrates
  · cases hrates
  · split at hrates
    · cases hrates
    · split at hrates
      · cases hrates
      · cases hrates
        rfl

namespace Config

/-- The number of sampled frames in all recorded hours of a video, multiplied in words of 64 bits. -/
def wordAnalysisFrames (config : Config) (video : String) : Outcome ℕ :=
  (config.hours video).map fun hours =>
    wordProduct (wordProduct hours.length secondsPerHour) config.analysisRate.toNat

/-- Words count the sampled frames up to whole words. -/
theorem wordAnalysisFrames_eq_ok {config : Config} {video : String} {frames : ℕ}
    (hframes : config.analysisFrames video = .ok frames) :
    config.wordAnalysisFrames video = .ok (frames % 2 ^ 64) := by
  obtain ⟨hours, hhours, hcount⟩ := Outcome.bind_eq_ok.mp hframes
  rw [wordAnalysisFrames, hhours, ← Except.ok.inj hcount, Except.map, wordProduct_eq_mod, wordProduct_eq_mod,
    Nat.mod_mul_mod]

end Config

namespace Footage

variable (footage : Footage)

/-- The directory that holds the files of the rendition. -/
def directory : String :=
  match footage.rendition with
  | .unmasked => footage.featuresDirectory
  | .masked | .maskedRegions | .reserved => footage.maskedFeaturesDirectory

/-- What the name of a file says about its region. -/
def regionEnding : Option ℕ → String
  | none => ""
  | some region => s!"_m{region}"

/-- The name of the file of an hour and a region. -/
def fileName (hour : UInt32) (region : Option ℕ) : String :=
  s!"{footage.video}{hour.toNat}{regionEnding region}.csv"

/-- The file of an hour and a region, in the directory of the video. -/
def file (hour : UInt32) (region : Option ℕ) : String :=
  Path.join (Path.join footage.directory footage.video) (footage.fileName hour region)

/-- The rendition has files for a region, or for the whole scene. -/
def HasRegion : Option ℕ → Prop
  | none => footage.rendition = .unmasked ∨ footage.rendition = .masked
  | some _ => footage.rendition = .maskedRegions

variable {footage} {region : Option ℕ}

/-- The path of an hour names its file. -/
theorem hourPath_eq_ok (hregion : footage.HasRegion region) (hour : UInt32) :
    footage.hourPath hour region = .ok (footage.file hour region) := by
  cases region with
  | none => rcases hregion with h | h <;> simp [hourPath, file, directory, h, fileName, regionEnding]
  | some region =>
    have h : footage.rendition = .maskedRegions := hregion
    simp [hourPath, file, directory, h, fileName, regionEnding]

/-- The files of a region, one for each hour. -/
def paths (footage : Footage) (region : Option ℕ) : List String :=
  footage.hours.map fun hour => footage.file hour region

/-- The chunks of a region are read from the frames of its files. -/
theorem chunks_eq_ok (hregion : footage.HasRegion region) (store : Store) :
    footage.chunks store region =
      .ok (readChunks footage.framesPerChunk
        (readFrames store footage.decimation.frames (footage.paths region) :
          List (Outcome (Frame α)))) := by
  have hpaths : (footage.hours.mapM fun hour => footage.hourPath hour region) =
      .ok (footage.paths region) :=
    Outcome.mapM_eq_ok fun hour _ => hourPath_eq_ok hregion hour
  rw [chunks, frames, hpaths]
  rfl

/-- The number of frames sampled from an hour. -/
theorem length_frames (footage : Footage) :
    footage.decimation.frames.length = footage.decimation.analysisPerHour := by
  rw [footage.decimation.coversHour.length_frames, Decimation.analysisPerHour_eq]

/-- One hour that fits one chunk is that chunk. -/
theorem chunks_hour (hregion : footage.HasRegion region) {hour : UInt32} (hhours : footage.hours = [hour])
    (hsize : footage.framesPerChunk = footage.decimation.analysisPerHour)
    (hcapacity : footage.framesPerChunk ≤ chunkCapacity) {store : Store}
    {rows : List (Row α)} (hread : readHour store (footage.file hour region) = .ok rows) :
    footage.chunks store region = .ok [.ok (sampleHour footage.decimation.frames rows)] := by
  have hpos : 0 < footage.framesPerChunk := by
    rw [hsize]
    exact Nat.mul_pos footage.decimation.analysis_pos (by decide)
  have hlength : (sampleHour footage.decimation.frames rows).length = footage.framesPerChunk := by
    rw [length_sampleHour, length_frames, hsize]
  rw [chunks_eq_ok hregion, paths, hhours, List.map_singleton, readFrames, hread, readFrames]
  dsimp only
  rw [List.append_nil, readChunks_of_le hcapacity, cutChunks_ok hpos, chunkPieces_whole hpos hlength,
    List.map_singleton]

/-- The number of frames in all hours of the footage. -/
def frameCount (footage : Footage) : ℕ :=
  footage.hours.length * footage.decimation.analysisPerHour

/-- The number of chunks of the footage, a partial one at the end included. -/
def chunkCount (footage : Footage) : ℕ :=
  (footage.frameCount + footage.framesPerChunk - 1) / footage.framesPerChunk

section Opening

variable {config : Config} {video : String} {rendition : Rendition} {framesPerChunk : ℕ}

/-- What opening footage asks for and gives. -/
theorem ofConfig_eq_ok (hopen : ofConfig config video rendition framesPerChunk = .ok footage) :
    ∃ hours decimation, config.hours video = .ok hours ∧ config.decimation = .ok decimation ∧
      footage = ⟨config.featuresDirectory, config.maskedFeaturesDirectory, video, rendition, hours,
        decimation, framesPerChunk⟩ := by
  unfold ofConfig at hopen
  dsimp only at hopen
  rw [Outcome.guard_eq_ok] at hopen
  obtain ⟨-, hopen⟩ := hopen
  obtain ⟨hours, hhours, hopen⟩ := Outcome.bind_eq_ok.mp hopen
  obtain ⟨decimation, hdecimation, hopen⟩ := Outcome.bind_eq_ok.mp hopen
  exact ⟨hours, decimation, hhours, hdecimation, (Except.ok.inj hopen).symm⟩

/-- Footage has as many frames as its configuration counts. -/
theorem analysisFrames_eq_ok (hopen : ofConfig config video rendition framesPerChunk = .ok footage) :
    config.analysisFrames video = .ok footage.frameCount := by
  obtain ⟨hours, decimation, hhours, hdecimation, rfl⟩ := ofConfig_eq_ok hopen
  rw [Config.analysisFrames, hhours, frameCount, Decimation.analysisPerHour,
    Decimation.analysis_of_ofRates hdecimation, Nat.mul_comm _ secondsPerHour, ← Nat.mul_assoc]
  rfl

end Opening

/-- The frames of a region go up to the frames in all hours. -/
theorem readFrames_paths (footage : Footage) (store : Store) (region : Option ℕ) :
    ReadUpTo footage.frameCount
      (readFrames store footage.decimation.frames (footage.paths region) :
        List (Outcome (Frame α))) := by
  have hlength := footage.length_frames
  have hpos : 0 < footage.decimation.frames.length := by
    rw [hlength]
    exact Nat.mul_pos footage.decimation.analysis_pos (by decide)
  have hread := readFrames_readUpTo (α := α) store hpos (footage.paths region)
  rwa [paths, List.length_map, hlength] at hread

/-- The chunks of a region go up to the chunks of the footage. -/
theorem chunks_readUpTo (hregion : footage.HasRegion region) (hsize : 0 < footage.framesPerChunk)
    (hframes : 0 < footage.frameCount) (store : Store) :
    ∃ items : List (Outcome (Chunk α)), footage.chunks store region = .ok items ∧
      ReadUpTo footage.chunkCount items :=
  ⟨_, chunks_eq_ok hregion store, (footage.readFrames_paths store region).readChunks hsize hframes⟩

/-- A region that is read to its end has as many chunks as the footage, and those that the frames fill
are whole. -/
theorem whole_chunks (hregion : footage.HasRegion region) (hsize : 0 < footage.framesPerChunk)
    (hframes : 0 < footage.frameCount) {store : Store} {chunks : List (Chunk α)}
    (hchunks : footage.chunks store region = .ok (chunks.map .ok)) :
    chunks.length = footage.chunkCount ∧
      ∀ position < footage.frameCount / footage.framesPerChunk, ∃ chunk,
        chunks[position]? = some chunk ∧ chunk.length = footage.framesPerChunk := by
  rw [chunks_eq_ok hregion, Except.ok.injEq] at hchunks
  replace hchunks := cutChunks_of_readChunks hchunks
  rcases (footage.readFrames_paths (α := α) store region).whole_or_broken with
    ⟨frames, hread, hlength⟩ | ⟨frames, error, hread, -⟩
  · rw [hread, cutChunks_ok hsize] at hchunks
    have hpieces : chunkPieces footage.framesPerChunk frames = chunks :=
      List.map_injective_iff.mpr (fun _ _ => Except.ok.inj) hchunks
    rw [← hlength] at hframes
    refine ⟨?_, fun position hposition => ?_⟩
    · rw [← hpieces, length_chunkPieces hsize (List.ne_nil_of_length_pos hframes), hlength,
        chunkCount]
    · rw [← hlength] at hposition
      have hgroup := getElem?_groupsOf hposition
      have htake := take_chunkPieces hsize frames
      rw [← htake, List.getElem?_take_of_lt hposition, hpieces] at hgroup
      refine ⟨_, hgroup, ?_⟩
      exact (mem_groupsOf (List.mem_of_getElem? (getElem?_groupsOf hposition))).1
  · rw [hread, cutChunks_error hsize] at hchunks
    exact absurd ⟨error, hchunks ▸ List.mem_append_right _ (List.mem_singleton_self _)⟩
      (not_breaksOff_map_ok chunks)

end Footage

end PrivateFootage
