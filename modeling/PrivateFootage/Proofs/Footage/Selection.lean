import Mathlib
import PrivateFootage.Proofs.ExactArithmetic
import PrivateFootage.Proofs.Footage.OnDemand

/-!
# Which rows the frames of a recording hold

The frame for a sampled index holds the rows of its hour with that index, in file order. No index is
sampled twice, so the frames of an hour hold every row with a sampled index once and no other row. Hours
have equally many frames, so the place of a frame among all of them tells its hour and its index. A
file that cannot be read ends the frames with its error.

The same holds of frames that are asked for one by one.
-/

namespace PrivateFootage

variable {α : Type}

/-- If no index is sampled twice, the frames of an hour hold the rows with a sampled index once each and
no other row. -/
theorem flatten_sampleHour_perm {indices : List ℕ} (hdistinct : indices.Nodup) (rows : List (Row α)) :
    (sampleHour indices rows).flatten.Perm (rows.filter fun row => row.index ∈ indices) := by
  rw [sampleHour_eq]
  induction indices with
  | nil => simp
  | cons index indices ih =>
    obtain ⟨hnew, hrest⟩ := List.nodup_cons.mp hdistinct
    -- The rows of the first index, and those of the others among the remaining rows.
    have hothers : (rows.filter fun row => row.index ∈ indices) =
        (rows.filter fun row => row.index ∈ index :: indices).filter fun row => ¬row.index = index := by
      rw [List.filter_filter]
      apply List.filter_congr
      intro row _
      by_cases hindex : row.index = index <;> simp [hindex, hnew]
    have hfirst : (rows.filter fun row => row.index = index) =
        (rows.filter fun row => row.index ∈ index :: indices).filter fun row => row.index = index := by
      rw [List.filter_filter]
      apply List.filter_congr
      intro row _
      by_cases hindex : row.index = index <;> simp [hindex]
    rw [List.map_cons, List.flatten_cons]
    refine ((ih hrest).append_left _).trans ?_
    rw [hothers, hfirst]
    simpa using List.filter_append_perm (fun row : Row α => decide (row.index = index))
      (rows.filter fun row => row.index ∈ index :: indices)

/-- The frames of hours, one hour after another. -/
def sampleHours (indices : List ℕ) (hours : List (List (Row α))) : List (Frame α) :=
  hours.flatMap (sampleHour indices)

/-- Hours have equally many frames. -/
theorem length_sampleHours (indices : List ℕ) (hours : List (List (Row α))) :
    (sampleHours indices hours).length = hours.length * indices.length := by
  simp [sampleHours, List.length_flatMap]

/-- The frames of an hour stand together, behind those of the hours before it. -/
theorem slice_sampleHours (indices : List ℕ) {hours : List (List (Row α))} {hour : ℕ}
    {rows : List (Row α)} (hrows : hours[hour]? = some rows) :
    ((sampleHours indices hours).drop (hour * indices.length)).take indices.length =
      sampleHour indices rows := by
  induction hours generalizing hour with
  | nil => cases hrows
  | cons first hours ih =>
    have hlength := length_sampleHour indices first
    rw [sampleHours, List.flatMap_cons]
    cases hour with
    | zero =>
      cases hrows
      rw [Nat.zero_mul, List.drop_zero, ← hlength, List.take_left]
    | succ hour =>
      rw [List.getElem?_cons_succ] at hrows
      rw [Nat.succ_mul, Nat.add_comm, ← List.drop_drop, ← hlength, List.drop_left, hlength]
      exact ih hrows

variable [Scalar α]

/-- Hour files that can be read give their frames one after another, whatever follows them. -/
theorem readFrames_append {store : Store} (indices : List ℕ) {paths : List String}
    {hours : List (List (Row α))}
    (hread : List.Forall₂ (fun path rows => readHour store path = .ok rows) paths hours)
    (rest : List String) :
    readFrames store indices (paths ++ rest) =
      (sampleHours indices hours).map .ok ++ readFrames store indices rest := by
  induction hread with
  | nil => rfl
  | cons hfirst _ ih =>
    rw [List.cons_append, readFrames, hfirst]
    dsimp only
    rw [ih, ← List.append_assoc, ← List.map_append]
    rfl

/-- What it means that frames are those that a decimation samples from hours of rows. -/
structure Decimation.Selects (decimation : Decimation) (hours : List (List (Row α)))
    (frames : List (Frame α)) : Prop where
  length_eq : frames.length = hours.length * (3600 * decimation.analysis)
  /-- A frame holds the rows of its hour and index, in file order. -/
  frame_eq : ∀ (hour position index : ℕ) (rows : List (Row α)), hours[hour]? = some rows →
    decimation.frames[position]? = some index →
      frames[hour * (3600 * decimation.analysis) + position]? =
        some (rows.filter fun row => row.index = index)
  /-- The frames of an hour hold each of its rows once if its index is sampled, and no other row. -/
  rows_once : ∀ (hour : ℕ) (rows : List (Row α)), hours[hour]? = some rows →
    ((frames.drop (hour * (3600 * decimation.analysis))).take (3600 * decimation.analysis)).flatten.Perm
      (rows.filter fun row => row.index ∈ decimation.frames)

omit [Scalar α] in
/-- The frames of hours are those that the decimation samples from them. -/
theorem Decimation.selects_sampleHours (decimation : Decimation) (hours : List (List (Row α))) :
    decimation.Selects hours (sampleHours decimation.frames hours) := by
  have hcount := decimation.coversHour.length_frames
  constructor
  case length_eq => rw [length_sampleHours, hcount]
  case frame_eq =>
    intro hour position index rows hrows hindex
    have hlt : position < decimation.frames.length := (List.getElem?_eq_some_iff.mp hindex).1
    have hslice := slice_sampleHours decimation.frames hrows
    rw [← hcount, ← List.getElem?_drop, ← List.getElem?_take_of_lt hlt, hslice, sampleHour_eq,
      List.getElem?_map, hindex, Option.map_some]
  case rows_once =>
    intro hour rows hrows
    rw [← hcount, slice_sampleHours decimation.frames hrows]
    exact flatten_sampleHour_perm (decimation.coversHour.increasing.imp Nat.ne_of_lt) rows

/-- The frames of a video whose hours are all read are as many as its configuration counts. -/
theorem Footage.analysisFrames_of_frames {config : Config} {video : String} {rendition : Rendition}
    {framesPerChunk : ℕ} {footage : Footage} {store : Store} {region : Option ℕ} {frames : List (Frame α)}
    (hopen : ofConfig config video rendition framesPerChunk = .ok footage)
    (hframes : footage.frames store region = .ok (frames.map .ok)) :
    config.analysisFrames video = .ok frames.length := by
  obtain ⟨paths, hpaths, hread⟩ := Outcome.bind_eq_ok.mp hframes
  have hcount : paths.length = footage.hours.length :=
    (Outcome.mapM_eq_ok_iff.mp hpaths).length_eq.symm
  have hpos : 0 < footage.decimation.frames.length := by
    rw [footage.length_frames]
    exact Nat.mul_pos footage.decimation.analysis_pos (by decide)
  have hlength := readFrames_readUpTo (α := α) store hpos paths
  rw [Except.ok.inj hread] at hlength
  rw [analysisFrames_eq_ok hopen, hlength.length_eq, hcount, footage.length_frames, frameCount]

/-- Reading hour files gives exactly the frames that are sampled from them, whether they are asked for one by
one, with each index taken out of its hour, or listed at once. If all files can be read, the frames are those
of all hours, as many as are counted for a video, in words up to whole words. Otherwise they are those of the
files before the first that cannot be read, and its error ends them. -/
theorem readFrames_selects (decimation : Decimation) (store : Store) (paths : List String) :
    (∀ calls, FrameReader.answer decimation store paths calls =
      (readFrames store decimation.frames paths : List (Outcome (Frame α)))[calls]?) ∧
    (∀ hours : List (List (Row α)),
      List.Forall₂ (fun path rows => readHour store path = .ok rows) paths hours →
        ∃ frames, readFrames store decimation.frames paths = frames.map .ok ∧
          decimation.Selects hours frames) ∧
    (∀ (before after : List String) (path : String) (hours : List (List (Row α))) (error : Error),
      paths = before ++ path :: after →
      List.Forall₂ (fun path rows => readHour store path = .ok rows) before hours →
      (readHour store path : Outcome (List (Row α))) = .error error →
        ∃ frames, readFrames store decimation.frames paths = frames.map .ok ++ [.error error] ∧
          decimation.Selects hours frames) ∧
    ∀ (config : Config) (video : String) (rendition : Rendition) (framesPerChunk : ℕ) (footage : Footage)
      (region : Option ℕ) (frames : List (Frame α)),
      Footage.ofConfig config video rendition framesPerChunk = .ok footage →
      footage.frames store region = .ok (frames.map .ok) →
        config.analysisFrames video = .ok frames.length ∧
        config.wordAnalysisFrames video = .ok (frames.length % 2 ^ 64) := by
  refine ⟨FrameReader.answer_eq decimation store paths, fun hours hread => ?_,
    fun before after path hours error hpaths hread hfails => ?_,
    fun config video rendition framesPerChunk footage region frames hopen hframes => ?_⟩
  · have hframes := readFrames_append decimation.frames hread []
    rw [List.append_nil, readFrames, List.append_nil] at hframes
    exact ⟨_, hframes, decimation.selects_sampleHours hours⟩
  · have hlast : readFrames store decimation.frames (path :: after) =
        [(.error error : Outcome (Frame α))] := by
      rw [readFrames, hfails]
    refine ⟨_, ?_, decimation.selects_sampleHours hours⟩
    rw [hpaths, readFrames_append decimation.frames hread, hlast]
  · have hcount := Footage.analysisFrames_of_frames hopen hframes
    exact ⟨hcount, Config.wordAnalysisFrames_eq_ok hcount⟩

/-- Every other frame. -/
def everyOther : Decimation := ⟨2, 1, Nat.one_pos, by decide⟩

/-- A store with one hour of detections, in the frames 2, 3, 0 and again 2. -/
def mixedHour : Store where
  entries :=
    [(["hour0.csv"], .file "2,0,0,1,1,1\n3,0,0,1,1,1\n0,0,0,1,1,1\n2,5,5,1,1,1\n".toUTF8)]

/-- A detection on the diagonal. -/
def diagonalRow (index : ℕ) (edge : ℚ) : Row ℚ := ⟨index, index, ⟨edge, edge, 1, 1⟩, 1, []⟩

/-- The hour is read and the next one is missing: the second frame holds the rows of the third index in
file order, the frame between them is not sampled, and the error comes after all frames of the hour. -/
theorem readFrames_selects_mixed_hour :
    List.Forall₂ (fun path rows => readHour mixedHour path = .ok rows) ["/hour0.csv"]
      [[diagonalRow 2 0, diagonalRow 3 0, diagonalRow 0 0, diagonalRow 2 5]] ∧
    (readHour mixedHour "/hour1.csv" : Outcome (List (Row ℚ))) = .error (.fileNotFound "/hour1.csv") ∧
    ∃ frames : List (Frame ℚ), readFrames mixedHour everyOther.frames ["/hour0.csv", "/hour1.csv"] =
        frames.map .ok ++ [.error (.fileNotFound "/hour1.csv")] ∧
      frames.length = 3600 ∧ frames[1]? = some [diagonalRow 2 0, diagonalRow 2 5] ∧
      FrameReader.answer everyOther mixedHour ["/hour0.csv", "/hour1.csv"] 1 =
        some (.ok [diagonalRow 2 0, diagonalRow 2 5]) := by
  have hread : List.Forall₂ (fun path rows => readHour mixedHour path = .ok rows) ["/hour0.csv"]
      [[diagonalRow 2 0, diagonalRow 3 0, diagonalRow 0 0, diagonalRow 2 5]] :=
    .cons (by decide +kernel) .nil
  have hmissing : (readHour mixedHour "/hour1.csv" : Outcome (List (Row ℚ))) =
      .error (.fileNotFound "/hour1.csv") := by decide +kernel
  obtain ⟨hanswers, -, hends, -⟩ :=
    readFrames_selects (α := ℚ) everyOther mixedHour ["/hour0.csv", "/hour1.csv"]
  obtain ⟨frames, hframes, hselects⟩ :=
    hends ["/hour0.csv"] [] "/hour1.csv" _ _ rfl hread hmissing
  have hindex : everyOther.frames[1]? = some 2 := by
    rw [everyOther.frames_eq]
    decide +kernel
  have hframe := hselects.frame_eq 0 1 2 _ rfl hindex
  rw [Nat.zero_mul, Nat.zero_add] at hframe
  have hrows : [diagonalRow 2 0, diagonalRow 3 0, diagonalRow 0 0, diagonalRow 2 5].filter
      (fun row => row.index = 2) = [diagonalRow 2 0, diagonalRow 2 5] := by decide +kernel
  rw [hrows] at hframe
  have hbound : 1 < (frames.map Except.ok : List (Outcome (Frame ℚ))).length := by
    rw [List.length_map, hselects.length_eq]
    decide
  refine ⟨hread, hmissing, frames, hframes, hselects.length_eq, hframe, ?_⟩
  rw [hanswers, hframes, List.getElem?_append_left hbound, List.getElem?_map, hframe, Option.map_some]

end PrivateFootage
