import Mathlib
import PrivateFootage.Proofs.Chunk.Lockstep

/-!
# Cutting loses nothing

A sequence that is read to its end is cut into chunks that put it together again, all of them full
but the last, and the last not empty. The only empty chunk is the one that an empty sequence gives.
A sequence with an error gives the full chunks before it and then the error; the chunk under way and
whatever would have been read later are left out.

The second part reads chunks one at a time, on demand, as a caller does that takes them as they
come. Such a reader has a little state of its own: how many chunks it has given, and whether the end
was seen. It reserves the room for a chunk before it fills it, and a size beyond the capacity ends the
program there, even if there is nothing to read. For all other sizes its answers are the chunks above,
one after the other, and then nothing for good.
-/

namespace PrivateFootage

variable {β : Type}

/-! ### Sequences cut at once -/

/-- A sequence is read to its end, or there is a first error in it. -/
theorem ok_or_firstError (items : List (Outcome β)) :
    (∃ frames : List β, items = frames.map .ok) ∨
      ∃ (frames : List β) (error : Error) (later : List (Outcome β)),
        items = frames.map .ok ++ .error error :: later := by
  induction items with
  | nil => exact .inl ⟨[], rfl⟩
  | cons item items ih =>
    cases item with
    | error error => exact .inr ⟨[], error, items, rfl⟩
    | ok frame =>
      rcases ih with ⟨frames, rfl⟩ | ⟨frames, error, later, rfl⟩
      · exact .inl ⟨frame :: frames, rfl⟩
      · exact .inr ⟨frame :: frames, error, later, rfl⟩

/-- What comes after an error is not cut. -/
theorem cutFrom_append_error (size : ℕ) (cut : List (Outcome (List β))) (chunk : List β) (count : ℕ)
    (frames : List β) (error : Error) (later : List (Outcome β)) :
    cutFrom size cut chunk count (frames.map .ok ++ .error error :: later) =
      cutFrom size cut chunk count (frames.map .ok ++ [.error error]) := by
  induction frames generalizing cut chunk count with
  | nil => rfl
  | cons frame frames ih =>
    simp only [List.map_cons, List.cons_append, cutFrom, ih]

/-- A size of zero cuts as a size of one does. -/
theorem cutFrom_zero (cut : List (Outcome (List β))) (chunk : List β) (count : ℕ)
    (items : List (Outcome β)) : cutFrom 0 cut chunk count items = cutFrom 1 cut chunk count items := by
  induction items generalizing cut chunk count with
  | nil => rfl
  | cons item items ih =>
    cases item with
    | error error => rfl
    | ok frame => simp [cutFrom, ih]

/-- Sizes count from one. -/
theorem cutChunks_max_one (size : ℕ) (items : List (Outcome β)) :
    cutChunks (max size 1) items = cutChunks size items := by
  cases size with
  | zero => exact (cutFrom_zero [] [] 0 items).symm
  | succ size => rw [max_eq_left (Nat.succ_pos size)]

/-- What a sequence that is read to its end is cut into. -/
structure WholeCut (size : ℕ) (frames : List β) (chunks : List (List β)) : Prop where
  flatten_eq : chunks.flatten = frames
  of_empty : frames = [] → chunks = [[]]
  /-- Only the last chunk may be shorter than the others, and it is not empty. -/
  full_but_last : frames ≠ [] → ∃ full last, chunks = full ++ [last] ∧
    (∀ chunk ∈ full, chunk.length = size) ∧ 1 ≤ last.length ∧ last.length ≤ size

/-- What a sequence with an error after some frames is cut into before the error. -/
structure BrokenCut (size : ℕ) (frames : List β) (chunks : List (List β)) : Prop where
  length_eq : chunks.length = frames.length / size
  full : ∀ chunk ∈ chunks, chunk.length = size
  flatten_eq : chunks.flatten = frames.take (frames.length / size * size)

/-- The pieces of a sequence put it together again. -/
theorem flatten_pieces {size : ℕ} (hpos : 0 < size) (frames : List β) :
    (pieces size frames).flatten = frames := by
  have hgroups := flatten_groupsOf_take hpos frames
  rw [pieces, List.flatten_append, hgroups]
  split
  · next hmod =>
    have hall : frames.length / size * size = frames.length :=
      Nat.div_mul_cancel (Nat.dvd_of_mod_eq_zero hmod)
    simp [hall]
  · simp

/-- The pieces of a sequence are full but for the last, which is not empty. -/
theorem pieces_eq_append {size : ℕ} (hpos : 0 < size) {frames : List β} (hframes : frames ≠ []) :
    ∃ full last, pieces size frames = full ++ [last] ∧
      (∀ chunk ∈ full, chunk.length = size) ∧ 1 ≤ last.length ∧ last.length ≤ size := by
  have hfull : ∀ chunk ∈ groupsOf size frames, chunk.length = size :=
    fun chunk hchunk => (mem_groupsOf hchunk).1
  by_cases hmod : frames.length % size = 0
  · -- Nothing is left over, and the last group is the last piece.
    have hpieces : pieces size frames = groupsOf size frames := by simp [pieces, hmod]
    have hgroups : groupsOf size frames ≠ [] := by
      intro hnone
      apply hframes
      rw [← flatten_pieces hpos frames, hpieces, hnone, List.flatten_nil]
    have hlast := hfull _ (List.getLast_mem hgroups)
    refine ⟨(groupsOf size frames).dropLast, (groupsOf size frames).getLast hgroups, ?_, ?_, ?_, ?_⟩
    · rw [List.dropLast_append_getLast, hpieces]
    · exact fun chunk hchunk => hfull chunk (List.dropLast_subset _ hchunk)
    · omega
    · omega
  · have hsplit := Nat.div_add_mod frames.length size
    have hlt := Nat.mod_lt frames.length hpos
    rw [Nat.mul_comm] at hsplit
    refine ⟨groupsOf size frames, frames.drop (frames.length / size * size), ?_, hfull, ?_, ?_⟩
    · rw [pieces, if_neg hmod]
    · rw [List.length_drop]
      omega
    · rw [List.length_drop]
      omega

/-- A sequence that is read to its end is cut as it should be. -/
theorem wholeCut_chunkPieces {size : ℕ} (hpos : 0 < size) (frames : List β) :
    WholeCut size frames (chunkPieces size frames) := by
  by_cases hframes : frames = []
  · subst hframes
    exact ⟨rfl, fun _ => rfl, fun h => absurd rfl h⟩
  · rw [chunkPieces, if_neg hframes]
    exact ⟨flatten_pieces hpos frames, fun h => absurd h hframes,
      fun _ => pieces_eq_append hpos hframes⟩

/-- The whole groups of a sequence are what is kept of it before an error. -/
theorem brokenCut_groupsOf {size : ℕ} (hpos : 0 < size) (frames : List β) :
    BrokenCut size frames (groupsOf size frames) :=
  ⟨length_groupsOf size frames, fun _ hchunk => (mem_groupsOf hchunk).1,
    flatten_groupsOf_take hpos frames⟩

/-! ### Chunks on demand -/

/-- Chunks read one at a time: what is left of the sequence, how many chunks were given, and whether
its end or an error was met. -/
structure ChunkReader (β : Type) where
  items : List (Outcome β)
  emitted : ℕ
  done : Bool

namespace ChunkReader

/-- A reader at the start of a sequence. -/
def start (items : List (Outcome β)) : ChunkReader β := ⟨items, 0, false⟩

/-- Fill the chunk under way, which has room for some more items. The end of the sequence gives what
there is of the chunk, unless that is nothing and earlier chunks were given. -/
def fill (emitted : ℕ) : (room : ℕ) → (chunk : List β) → List (Outcome β) →
    Option (Outcome (List β)) × ChunkReader β
  | 0, chunk, items => (some (.ok chunk), ⟨items, emitted + 1, false⟩)
  | _ + 1, chunk, [] =>
    if chunk.isEmpty && decide (0 < emitted) then (none, ⟨[], emitted, true⟩)
    else (some (.ok chunk), ⟨[], emitted + 1, true⟩)
  | _ + 1, _, .error error :: items => (some (.error error), ⟨items, emitted, true⟩)
  | room + 1, chunk, .ok item :: items => fill emitted room (chunk ++ [item]) items

/-- Ask for the next chunk. A size of zero counts as one. Room for the whole chunk is reserved first. -/
def next (size : ℕ) (reader : ChunkReader β) : Option (Outcome (List β)) × ChunkReader β :=
  if reader.done then (none, reader)
  else if chunkCapacity < max size 1 then (some (.error .capacity), { reader with done := true })
  else fill reader.emitted (max size 1) [] reader.items

/-- The reader after a number of calls. -/
def after (size : ℕ) (items : List (Outcome β)) (calls : ℕ) : ChunkReader β :=
  (fun reader => (reader.next size).2)^[calls] (start items)

/-- The answer to a call that comes after a number of others. -/
def answer (size : ℕ) (items : List (Outcome β)) (calls : ℕ) : Option (Outcome (List β)) :=
  ((after size items calls).next size).1

/-- The chunks given, in reverse order, and those that the reader would still give. -/
def whole (size : ℕ) (given : List (Outcome (List β))) (reader : ChunkReader β) :
    List (Outcome (List β)) :=
  if reader.done then given.reverse else cutFrom size given [] 0 reader.items

/-- Filling a chunk moves it from what would still be given to what is given. -/
theorem whole_fill {size room : ℕ} (given : List (Outcome (List β))) (chunk : List β)
    (items : List (Outcome β)) (hroom : chunk.length + (room + 1) = size) :
    whole size ((fill given.length (room + 1) chunk items).1.toList ++ given)
        (fill given.length (room + 1) chunk items).2 =
      cutFrom size given chunk.reverse chunk.length items := by
  induction items generalizing room chunk with
  | nil =>
    by_cases hchunk : chunk = [] <;> by_cases hgiven : given = [] <;>
      simp [fill, whole, cutFrom, hchunk, hgiven, List.length_pos_iff]
  | cons item items ih =>
    cases item with
    | error error => simp [fill, whole, cutFrom]
    | ok item =>
      have hlength : chunk.length + 1 = (chunk ++ [item]).length := by simp
      have hreverse : item :: chunk.reverse = (chunk ++ [item]).reverse := by simp
      -- The last item that fits closes the chunk on both sides; any other only shifts the border.
      cases room with
      | zero => simp [fill, whole, cutFrom, ← hroom]
      | succ room =>
        rw [cutFrom, if_pos (by omega), hreverse, hlength, fill]
        exact ih (chunk ++ [item]) (by rw [← hlength]; omega)

/-- Filling a chunk counts it, or meets the end. -/
theorem emitted_fill (emitted room : ℕ) (chunk : List β) (items : List (Outcome β)) :
    (fill emitted room chunk items).2.done = true ∨
      (∃ given, (fill emitted room chunk items).1 = some given) ∧
        (fill emitted room chunk items).2.emitted = emitted + 1 := by
  induction room generalizing chunk items with
  | zero => exact .inr ⟨⟨_, rfl⟩, rfl⟩
  | succ room ih =>
    cases items with
    | nil =>
      rw [fill]
      split <;> exact .inl rfl
    | cons item items =>
      cases item with
      | error error => exact .inl rfl
      | ok item => exact ih (chunk ++ [item]) items

/-- A reader on its way through a sequence: with the chunks that it has given, in order, it would
give the chunks of the whole sequence. -/
structure OnTheWay (size : ℕ) (chunks given : List (Outcome (List β))) (reader : ChunkReader β) :
    Prop where
  whole_eq : whole size given.reverse reader = chunks
  emitted_eq : reader.done = true ∨ reader.emitted = given.length

/-- A reader at the start of a sequence has given nothing. -/
theorem onTheWay_start {size : ℕ} (items : List (Outcome β)) :
    OnTheWay size (cutChunks size items) [] (start items) :=
  ⟨rfl, .inr rfl⟩

variable {size : ℕ} {chunks given : List (Outcome (List β))} {reader : ChunkReader β}

/-- The room for chunks of one item is always there, so a size of zero makes no difference. -/
theorem capacity_lt_max_one : chunkCapacity < max size 1 ↔ chunkCapacity < size := by
  rw [chunkCapacity]
  omega

/-- A call gives one more of the chunks of the sequence, or none, and then none for good. -/
theorem OnTheWay.next (hsize : size ≤ chunkCapacity) (hway : OnTheWay (max size 1) chunks given reader) :
    OnTheWay (max size 1) chunks (given ++ (reader.next size).1.toList) (reader.next size).2 ∧
      ((reader.next size).1 = none → (reader.next size).2.done = true) := by
  by_cases hdone : reader.done = true
  · have hnext : reader.next size = (none, reader) := if_pos hdone
    rw [hnext]
    exact ⟨by simpa using hway, fun _ => hdone⟩
  · have hemitted : reader.emitted = given.reverse.length := by
      simpa [hdone] using hway.emitted_eq
    have hnext : reader.next size = fill given.reverse.length (max size 1) [] reader.items := by
      rw [ChunkReader.next, if_neg hdone, if_neg (capacity_lt_max_one.not.mpr hsize.not_gt), hemitted]
    obtain ⟨room, hroom⟩ := Nat.exists_eq_add_one_of_ne_zero (by omega : max size 1 ≠ 0)
    have hwhole := whole_fill given.reverse [] reader.items ((Nat.zero_add _).trans hroom.symm)
    have hfill := emitted_fill given.reverse.length (max size 1) [] reader.items
    rw [← hroom, List.reverse_nil, List.length_nil] at hwhole
    rw [hnext]
    -- From here on it does not matter how the chunk was filled.
    generalize fill given.reverse.length (max size 1) [] reader.items = filled at hwhole hfill
    refine ⟨⟨?_, ?_⟩, ?_⟩
    · have hstill := hway.whole_eq
      rw [whole, if_neg hdone, ← hwhole] at hstill
      rw [← hstill]
      cases filled.1 <;> simp
    · rcases hfill with h | ⟨⟨chunk, hchunk⟩, h⟩
      · exact .inl h
      · exact .inr (by simp [h, hchunk])
    · rcases hfill with h | ⟨⟨chunk, hchunk⟩, -⟩
      · exact fun _ => h
      · simp [hchunk]

/-- Chunks that were cut stay in front of those that follow. -/
theorem reverse_starts_cutFrom (size : ℕ) (cut : List (Outcome (List β))) (chunk : List β)
    (count : ℕ) (items : List (Outcome β)) :
    cut.reverse <+: cutFrom size cut chunk count items := by
  induction items generalizing cut chunk count with
  | nil =>
    rw [cutFrom]
    split <;> simp
  | cons item items ih =>
    cases item with
    | error error => simp [cutFrom]
    | ok item =>
      rw [cutFrom]
      split
      · exact ih cut _ _
      · exact (by simp : cut.reverse <+: _).trans (ih (.ok (item :: chunk).reverse :: cut) [] 0)

/-- What a reader has given are the first chunks of the sequence. -/
theorem OnTheWay.starts (hway : OnTheWay size chunks given reader) : given <+: chunks := by
  rw [← hway.whole_eq, whole]
  split
  · simp
  · simpa using reverse_starts_cutFrom size given.reverse [] 0 reader.items

/-- A reader that has given a number of chunks gives the chunk at that position next. -/
theorem OnTheWay.next_eq {calls : ℕ} (hsize : size ≤ chunkCapacity)
    (hway : OnTheWay (max size 1) chunks (chunks.take calls) reader) :
    (reader.next size).1 = chunks[calls]? := by
  obtain ⟨hnext, hend⟩ := hway.next hsize
  cases hanswer : (reader.next size).1 with
  | none =>
    have hall := hnext.whole_eq
    rw [whole, if_pos (hend hanswer), List.reverse_reverse, hanswer, Option.toList_none,
      List.append_nil, List.take_eq_self_iff] at hall
    rw [List.getElem?_eq_none hall]
  | some chunk =>
    have hstarts := hnext.starts
    rw [hanswer, Option.toList_some] at hstarts
    have hlength := hstarts.length_le
    rw [List.length_append, List.length_take, List.length_singleton] at hlength
    have hcalls : calls < chunks.length := by omega
    have htake := List.prefix_iff_eq_take.mp hstarts
    rw [List.length_append, List.length_take_of_le hcalls.le, List.length_singleton,
      List.take_add_one, List.append_right_inj, List.getElem?_eq_getElem hcalls,
      Option.toList_some] at htake
    rw [List.getElem?_eq_getElem hcalls, (List.cons.inj htake).1]

/-- After a number of calls a reader has given that many chunks, or all there are. -/
theorem onTheWay_after (hsize : size ≤ chunkCapacity) (items : List (Outcome β)) (calls : ℕ) :
    OnTheWay (max size 1) (cutChunks size items) ((cutChunks size items).take calls)
      (after size items calls) := by
  induction calls with
  | zero =>
    rw [List.take_zero, ← cutChunks_max_one]
    exact onTheWay_start items
  | succ calls ih =>
    have hnext := (ih.next hsize).1
    rw [ih.next_eq hsize, ← List.take_add_one] at hnext
    rw [after, Function.iterate_succ_apply']
    exact hnext

/-- The first call for chunks beyond the capacity fails. -/
theorem next_start_of_lt (hsize : chunkCapacity < size) (items : List (Outcome β)) :
    (start items).next size = (some (.error .capacity), ⟨items, 0, true⟩) := by
  rw [ChunkReader.next, if_neg (by simp [start]), if_pos (capacity_lt_max_one.mpr hsize)]
  rfl

/-- The first call for chunks beyond the capacity is the last. -/
theorem done_after_of_lt (hsize : chunkCapacity < size) (items : List (Outcome β)) (calls : ℕ) :
    (after size items (calls + 1)).done = true := by
  induction calls with
  | zero => exact congrArg (fun answered => answered.2.done) (next_start_of_lt hsize items)
  | succ calls ih =>
    rw [after, Function.iterate_succ_apply']
    change ((after size items (calls + 1)).next size).2.done = true
    rw [ChunkReader.next, if_pos ih]
    exact ih

/-- The answers to one call after another are the chunks that are read, and then nothing. -/
theorem answer_eq (size : ℕ) (items : List (Outcome β)) (calls : ℕ) :
    answer size items calls = (readChunks size items)[calls]? := by
  rcases le_or_gt size chunkCapacity with hsize | hsize
  · rw [readChunks_of_le hsize]
    exact (onTheWay_after hsize items calls).next_eq hsize
  · rw [readChunks_of_lt hsize, answer]
    cases calls with
    | zero => exact congrArg Prod.fst (next_start_of_lt hsize items)
    | succ calls =>
      rw [ChunkReader.next, if_pos (done_after_of_lt hsize items calls)]
      rfl

end ChunkReader

/-- Every sequence that is cut is either cut whole or up to its first error. -/
theorem cutChunks_whole_or_broken (size : ℕ) (items : List (Outcome β)) :
    (∃ frames, items = frames.map .ok ∧ ∃ chunks, cutChunks size items = chunks.map .ok ∧
      WholeCut (max size 1) frames chunks) ∨
    ∃ frames error later, items = frames.map .ok ++ .error error :: later ∧
      ∃ chunks, cutChunks size items = chunks.map .ok ++ [.error error] ∧
        BrokenCut (max size 1) frames chunks := by
  have hpos : 0 < max size 1 := by omega
  rw [← cutChunks_max_one]
  rcases ok_or_firstError items with ⟨frames, rfl⟩ | ⟨frames, error, later, rfl⟩
  · exact .inl ⟨frames, rfl, chunkPieces (max size 1) frames, cutChunks_ok hpos frames,
      wholeCut_chunkPieces hpos frames⟩
  · have hcut : cutChunks (max size 1) (frames.map .ok ++ .error error :: later) =
        (groupsOf (max size 1) frames).map .ok ++ [.error error] := by
      rw [cutChunks, cutFrom_append_error]
      exact cutChunks_error hpos frames error
    exact .inr ⟨frames, error, later, rfl, groupsOf (max size 1) frames, hcut,
      brokenCut_groupsOf hpos frames⟩

/-- Asking for one chunk after the other comes to an end, for every sequence and every size. The answers are
a lossless cut for every size within the capacity: of the whole sequence if it has no error, else of what fills
chunks before its first error, with that error at the end. Beyond the capacity nothing is read, and the program
ends at the first call. -/
theorem readChunks_lossless_within_capacity (size : ℕ) (items : List (Outcome β)) :
    (∀ calls, ChunkReader.answer size items calls = (readChunks size items)[calls]?) ∧
    (size ≤ chunkCapacity →
      (∃ frames, items = frames.map .ok ∧ ∃ chunks, readChunks size items = chunks.map .ok ∧
          WholeCut (max size 1) frames chunks) ∨
        ∃ frames error later, items = frames.map .ok ++ .error error :: later ∧
          ∃ chunks, readChunks size items = chunks.map .ok ++ [.error error] ∧
            BrokenCut (max size 1) frames chunks) ∧
    (chunkCapacity < size → readChunks size items = [.error .capacity]) := by
  refine ⟨ChunkReader.answer_eq size items, fun hsize => ?_, fun hsize => readChunks_of_lt hsize items⟩
  rw [readChunks_of_le hsize]
  exact cutChunks_whole_or_broken size items

/-- Three frames make a full chunk of two and a last one. -/
theorem readChunks_lossless_within_capacity_three_frames :
    2 ≤ chunkCapacity ∧ ∃ chunks, readChunks 2 ([7, 8, 9].map .ok : List (Outcome ℕ)) = chunks.map .ok ∧
      WholeCut (max 2 1) [7, 8, 9] chunks := by
  have hsize : 2 ≤ chunkCapacity := by decide
  refine ⟨hsize, ?_⟩
  rcases (readChunks_lossless_within_capacity 2 ([7, 8, 9].map .ok : List (Outcome ℕ))).2.1 hsize with
    ⟨frames, hframes, chunks, hchunks⟩ | ⟨frames, error, later, hbroken, -⟩
  · have hsame : [7, 8, 9] = frames := List.map_injective_iff.mpr (fun _ _ => Except.ok.inj) hframes
    rw [← hsame] at hchunks
    exact ⟨chunks, hchunks⟩
  · have herror : Except.error error ∈ ([7, 8, 9].map .ok : List (Outcome ℕ)) := by
      rw [hbroken]
      simp
    simp at herror

/-- A size of a quintillion ends the program where an empty sequence has one empty chunk. -/
theorem no_empty_chunk_beyond_capacity :
    ChunkReader.answer 1000000000000000000 ([] : List (Outcome ℕ)) 0 = some (.error .capacity) ∧
      readChunks 1000000000000000000 ([] : List (Outcome ℕ)) ≠ [.ok []] := by
  decide

end PrivateFootage
