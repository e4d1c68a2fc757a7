import Mathlib
import PrivateFootage.Proofs.Footage.Reading

/-!
# Frames on demand

Frames can be asked for one at a time. A reader then opens a file when the hour before it is over, and keeps
the rows of the open hour by frame index. When the turn of an index comes, its rows are taken out and are gone.
A sampling never comes back to an index, so nothing is missing when its turn comes. The answers to one call
after another are therefore the frames of all files in order, up to the error of the first file that cannot be
read, and then nothing for good.
-/

namespace PrivateFootage

variable {α : Type}

/-! ### The frames of an hour -/

/-- Grouping rows by index keeps those of one index in file order. -/
theorem getD_rowsByIndex (rows : List (Row α)) (index : ℕ) :
    (rowsByIndex rows).getD index [] = rows.filter fun row => row.index = index := by
  induction rows with
  | nil => simp [rowsByIndex]
  | cons row rows ih =>
    have hgroups : rowsByIndex (row :: rows) =
        (rowsByIndex rows).alter row.index fun frame => some (row :: frame.getD []) := rfl
    rw [hgroups, Std.TreeMap.getD_alter]
    by_cases hindex : row.index = index
    · subst hindex
      rw [Std.TreeMap.getD_eq_getD_getElem?] at ih
      simp [ih]
    · simp [ih, hindex]

/-- The frames of an hour hold the rows of the sampled indices. -/
theorem sampleHour_eq (indices : List ℕ) (rows : List (Row α)) :
    sampleHour indices rows = indices.map fun index => rows.filter fun row => row.index = index := by
  simp only [sampleHour, getD_rowsByIndex]

variable {decimation : Decimation} {rows : List (Row α)} {taken : ℕ}

/-- The next frame of an hour holds the rows of the index under the cursor. -/
theorem drop_sampleHour (rows : List (Row α)) (htaken : taken < decimation.analysisPerHour) :
    (sampleHour decimation.frames rows).drop taken =
      (rows.filter fun row => row.index = (decimation.cursorAt taken).frame) ::
        (sampleHour decimation.frames rows).drop (taken + 1) := by
  have hframes : sampleHour decimation.frames rows = (List.range decimation.analysisPerHour).map
      fun steps => rows.filter fun row => row.index = (decimation.cursorAt steps).frame := by
    rw [sampleHour_eq, decimation.frames_eq, List.map_map]
    rfl
  have hlength : taken < (sampleHour decimation.frames rows).length := by
    rw [hframes, List.length_map, List.length_range]
    exact htaken
  rw [List.drop_eq_getElem_cons hlength]
  simp [hframes]

/-- An hour has as many frames as samples. -/
theorem drop_sampleHour_end (rows : List (Row α)) :
    (sampleHour decimation.frames rows).drop decimation.analysisPerHour = [] := by
  rw [List.drop_eq_nil_iff, length_sampleHour, decimation.coversHour.length_frames,
    decimation.analysisPerHour_eq]

/-- An hour under way: the rows that were not taken out yet, by frame index, and where its sampling is. -/
structure OpenHour (α : Type) where
  rows : Std.TreeMap ℕ (Frame α)
  cursor : Decimation.Cursor

namespace OpenHour

variable {hour : OpenHour α}

/-- The hour of a file that was just read. -/
def start (rows : List (Row α)) : OpenHour α := ⟨rowsByIndex rows, ⟨0, 0⟩⟩

/-- Take out the frame under the cursor, unless the hour is over. -/
def take? (decimation : Decimation) (hour : OpenHour α) : Option (Frame α × OpenHour α) :=
  if hour.cursor.frame < decimation.nativePerHour then
    some (hour.rows.getD hour.cursor.frame [],
      ⟨hour.rows.erase hour.cursor.frame, decimation.advance hour.cursor⟩)
  else none

/-- An hour from which a number of frames were taken. The rows of every index that is still to come are in
place. -/
structure Holds (decimation : Decimation) (rows : List (Row α)) (taken : ℕ) (hour : OpenHour α) : Prop where
  cursor_eq : hour.cursor = decimation.cursorAt taken
  getD_rows : ∀ index, (decimation.cursorAt taken).frame ≤ index →
    hour.rows.getD index [] = rows.filter fun row => row.index = index

/-- A file that was just read holds all its rows. -/
theorem holds_start (decimation : Decimation) (rows : List (Row α)) : (start rows).Holds decimation rows 0 :=
  ⟨rfl, fun index _ => getD_rowsByIndex rows index⟩

/-- A frame that is taken out holds all rows of its index, and leaves those of all later indices. -/
theorem Holds.take?_of_lt (hhour : hour.Holds decimation rows taken) (htaken : taken < decimation.analysisPerHour) :
    ∃ later, hour.take? decimation =
        some (rows.filter fun row => row.index = (decimation.cursorAt taken).frame, later) ∧
      later.Holds decimation rows (taken + 1) := by
  have hwithin := decimation.frame_lt_nativePerHour htaken
  refine ⟨⟨hour.rows.erase hour.cursor.frame, decimation.advance hour.cursor⟩, ?_, ?_, fun index hindex => ?_⟩
  · rw [take?, hhour.cursor_eq, if_pos hwithin, hhour.getD_rows _ le_rfl]
  · rw [hhour.cursor_eq, decimation.cursorAt_succ]
  · -- Sampling only moves forward, so the index that was erased is not asked for again.
    have hlater := (decimation.strictMono_frame taken.lt_succ_self).trans_le hindex
    rw [Std.TreeMap.getD_erase, hhour.cursor_eq, if_neg (by simpa using hlater.ne)]
    exact hhour.getD_rows index hlater.le

/-- After the samples of an hour there is nothing more to take. -/
theorem Holds.take?_end (hhour : hour.Holds decimation rows decimation.analysisPerHour) :
    hour.take? decimation = none := by
  rw [take?, hhour.cursor_eq, decimation.frame_analysisPerHour, if_neg (lt_irrefl _)]

end OpenHour

/-! ### The frames of all files -/

/-- Frames read one at a time: the files that were not opened yet, and the hour under way. -/
structure FrameReader (α : Type) where
  paths : List String
  hour : Option (OpenHour α)

namespace FrameReader

variable [Scalar α]

/-- A reader that has opened no file. -/
def start (paths : List String) : FrameReader α := ⟨paths, none⟩

/-- Open one file after another until there is a frame to take. A file that cannot be read ends the reading. -/
def openNext (decimation : Decimation) (store : Store) : List String → Option (Outcome (Frame α)) × FrameReader α
  | [] => (none, ⟨[], none⟩)
  | path :: paths =>
    match readHour store path with
    | .error error => (some (.error error), ⟨[], none⟩)
    | .ok rows =>
      match (OpenHour.start rows).take? decimation with
      | some (frame, hour) => (some (.ok frame), ⟨paths, some hour⟩)
      | none => openNext decimation store paths

/-- Ask for the next frame. -/
def next (decimation : Decimation) (store : Store) (reader : FrameReader α) :
    Option (Outcome (Frame α)) × FrameReader α :=
  match reader.hour.bind (OpenHour.take? decimation) with
  | some (frame, hour) => (some (.ok frame), { reader with hour := some hour })
  | none => openNext decimation store reader.paths

/-- The reader after a number of calls. -/
def after (decimation : Decimation) (store : Store) (paths : List String) (calls : ℕ) : FrameReader α :=
  (fun reader => (reader.next decimation store).2)^[calls] (start paths)

/-- The answer to a call that comes after a number of others. -/
def answer (decimation : Decimation) (store : Store) (paths : List String) (calls : ℕ) :
    Option (Outcome (Frame α)) :=
  ((after decimation store paths calls).next decimation store).1

/-- What a reader has still to give. -/
inductive Ahead (decimation : Decimation) (store : Store) : FrameReader α → List (Outcome (Frame α)) → Prop
  | between (paths : List String) :
    Ahead decimation store ⟨paths, none⟩ (readFrames store decimation.frames paths)
  | within {rows : List (Row α)} {taken : ℕ} {hour : OpenHour α} (paths : List String)
      (hhour : hour.Holds decimation rows taken) (htaken : taken ≤ decimation.analysisPerHour) :
    Ahead decimation store ⟨paths, some hour⟩
      (((sampleHour decimation.frames rows).drop taken).map .ok ++ readFrames store decimation.frames paths)

variable {store : Store} {reader : FrameReader α} {items : List (Outcome (Frame α))}

/-- Opening files gives the first frame of those that follow. -/
theorem ahead_openNext (decimation : Decimation) (store : Store) (paths : List String) :
    (openNext decimation store paths).1 =
        (readFrames store decimation.frames paths : List (Outcome (Frame α))).head? ∧
      Ahead decimation store (openNext decimation store paths).2
        (readFrames store decimation.frames paths : List (Outcome (Frame α))).tail := by
  cases paths with
  | nil => exact ⟨rfl, .between []⟩
  | cons path paths =>
    rw [openNext, readFrames]
    cases readHour (α := α) store path with
    | error error => exact ⟨rfl, .between []⟩
    | ok rows =>
      have hpos : 0 < decimation.analysisPerHour := Nat.mul_pos decimation.analysis_pos (by decide)
      obtain ⟨later, htake, hlater⟩ := (OpenHour.holds_start decimation rows).take?_of_lt hpos
      have hframes := drop_sampleHour rows hpos
      rw [List.drop_zero] at hframes
      dsimp only
      rw [htake, hframes]
      exact ⟨rfl, .within paths hlater hpos⟩

/-- A call gives the first of the frames that are still to come, and leaves the others. -/
theorem Ahead.next (hahead : Ahead decimation store reader items) :
    (reader.next decimation store).1 = items.head? ∧
      Ahead decimation store (reader.next decimation store).2 items.tail := by
  cases hahead with
  | between paths => exact ahead_openNext decimation store paths
  | within paths hhour htaken =>
    rcases htaken.lt_or_eq with hlt | rfl
    · obtain ⟨later, htake, hlater⟩ := hhour.take?_of_lt hlt
      rw [FrameReader.next, Option.bind_some, htake, drop_sampleHour _ hlt]
      exact ⟨rfl, .within paths hlater hlt⟩
    · rw [FrameReader.next, Option.bind_some, hhour.take?_end, drop_sampleHour_end]
      exact ahead_openNext decimation store paths

/-- After a number of calls, a reader has given as many frames. -/
theorem ahead_after (decimation : Decimation) (store : Store) (paths : List String) (calls : ℕ) :
    Ahead decimation store (after decimation store paths calls)
      ((readFrames store decimation.frames paths : List (Outcome (Frame α))).drop calls) := by
  induction calls with
  | zero => exact .between paths
  | succ calls ih =>
    rw [after, Function.iterate_succ_apply', ← List.tail_drop]
    exact ih.next.2

/-- The answers to one call after another are the frames of the files, and then nothing. -/
theorem answer_eq (decimation : Decimation) (store : Store) (paths : List String) (calls : ℕ) :
    answer decimation store paths calls =
      (readFrames store decimation.frames paths : List (Outcome (Frame α)))[calls]? := by
  rw [answer, (ahead_after decimation store paths calls).next.1, List.head?_drop]

end FrameReader

end PrivateFootage
