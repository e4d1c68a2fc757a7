import Mathlib
import PrivateFootage.Chunk.Cut
import PrivateFootage.Proofs.Window.Groups

/-!
# What a sequence without errors is cut into

Cutting carries the chunk under way along. For a sequence that is read without an error the result
does not depend on how far that chunk has come: it is the consecutive groups of the sequence, and
the rest as one shorter chunk if anything is left over.
-/

namespace PrivateFootage

variable {β : Type}

/-- The whole groups of a sequence, and what is left over if the groups do not use it up. -/
def pieces (size : ℕ) (items : List β) : List (List β) :=
  groupsOf size items ++
    if items.length % size = 0 then [] else [items.drop (items.length / size * size)]

/-- A sequence shorter than a group is one piece, or none if it is empty. -/
theorem pieces_of_lt {size : ℕ} {items : List β} (hlt : items.length < size) :
    pieces size items = if items = [] then [] else [items] := by
  rw [pieces, groupsOf_of_lt hlt, Nat.mod_eq_of_lt hlt, Nat.div_eq_of_lt hlt]
  simp

/-- A whole group in front is a piece of its own. -/
theorem pieces_append {size : ℕ} {whole : List β} (hpos : 0 < size) (hwhole : whole.length = size)
    (items : List β) : pieces size (whole ++ items) = whole :: pieces size items := by
  have hlength : (whole ++ items).length = items.length + size := by
    rw [List.length_append, hwhole, Nat.add_comm]
  have hdrop : (items.length / size + 1) * size = whole.length + items.length / size * size := by
    rw [hwhole, Nat.succ_mul, Nat.add_comm]
  rw [pieces, groupsOf_of_le hpos (by omega), ← hwhole, List.take_left, List.drop_left, hwhole,
    hlength, Nat.add_mod_right, Nat.add_div_right _ hpos, hdrop, List.drop_length_add_append, pieces]
  rfl

/-- Cutting the rest of a sequence completes the chunk under way and cuts the groups that follow. -/
theorem cutFrom_ok {size : ℕ} (hpos : 0 < size) (cut : List (Outcome (List β)))
    (chunk items : List β) (hchunk : chunk.length < size) :
    cutFrom size cut chunk.reverse chunk.length (items.map .ok) =
      if cut = [] ∧ chunk ++ items = [] then [.ok []]
      else cut.reverse ++ (pieces size (chunk ++ items)).map .ok := by
  induction items generalizing cut chunk with
  | nil =>
    rw [List.append_nil, pieces_of_lt hchunk, List.map_nil, cutFrom]
    by_cases hempty : chunk = [] <;> by_cases hcut : cut = [] <;> simp [hempty, hcut]
  | cons item items ih =>
    have hlength : chunk.length + 1 = (chunk ++ [item]).length := by simp
    have hjoin : chunk ++ item :: items = chunk ++ [item] ++ items := by simp
    have hreverse : item :: chunk.reverse = (chunk ++ [item]).reverse := by simp
    rw [if_neg (by simp), hjoin, List.map_cons, cutFrom, hreverse, hlength]
    split
    · next hlt =>
      rw [ih cut (chunk ++ [item]) hlt, if_neg (by simp)]
    · next hge =>
      have hwhole : (chunk ++ [item]).length = size := by simp at hge ⊢; omega
      have hrest := ih (.ok (chunk ++ [item]) :: cut) [] (by simpa using hpos)
      rw [if_neg (by simp), List.reverse_nil, List.length_nil, List.nil_append] at hrest
      rw [List.reverse_reverse, hrest, pieces_append hpos hwhole]
      simp

/-- The chunks of a sequence: its pieces, or one empty chunk if there is nothing to cut. -/
def chunkPieces (size : ℕ) (items : List β) : List (List β) :=
  if items = [] then [[]] else pieces size items

/-- A sequence without errors is cut into its chunks. -/
theorem cutChunks_ok {size : ℕ} (hpos : 0 < size) (items : List β) :
    cutChunks size (items.map .ok) = (chunkPieces size items).map .ok := by
  have hcut := cutFrom_ok hpos [] [] items hpos
  rw [List.reverse_nil, List.length_nil, List.nil_append] at hcut
  rw [cutChunks, hcut, chunkPieces]
  by_cases hempty : items = [] <;> simp [hempty]

/-- Within the capacity, reading chunks is cutting. -/
theorem readChunks_of_le {size : ℕ} (hsize : size ≤ chunkCapacity) (items : List (Outcome β)) :
    readChunks size items = cutChunks size items :=
  if_neg hsize.not_gt

/-- Beyond the capacity, nothing is read. -/
theorem readChunks_of_lt {size : ℕ} (hsize : chunkCapacity < size) (items : List (Outcome β)) :
    readChunks size items = [.error .capacity] :=
  if_pos hsize

/-- A sequence as long as a chunk is one chunk. -/
theorem chunkPieces_whole {size : ℕ} (hpos : 0 < size) {items : List β} (hlength : items.length = size) :
    chunkPieces size items = [items] := by
  have hitems : items ≠ [] := List.ne_nil_of_length_pos (hlength ▸ hpos)
  have hnothing : pieces size ([] : List β) = [] := by rw [pieces_of_lt hpos, if_pos rfl]
  have hpieces := pieces_append hpos hlength []
  rw [List.append_nil, hnothing] at hpieces
  rw [chunkPieces, if_neg hitems, hpieces]

/-- The first chunks of a sequence are its whole groups. -/
theorem take_chunkPieces {size : ℕ} (hpos : 0 < size) (items : List β) :
    (chunkPieces size items).take (items.length / size) = groupsOf size items := by
  by_cases hempty : items = []
  · subst hempty
    rw [groupsOf_of_lt hpos, List.length_nil, Nat.zero_div, List.take_zero]
  · rw [chunkPieces, if_neg hempty, pieces, List.take_left' (length_groupsOf size items)]

end PrivateFootage
