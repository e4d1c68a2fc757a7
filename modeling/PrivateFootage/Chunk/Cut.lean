import PrivateFootage.Error

/-!
# Cutting a sequence of frames into chunks

A sequence that is read step by step is a list of outcomes: what has been read so far, and possibly
an error, after which nothing counts. Cutting groups the items into chunks of a fixed size. The last
chunk may be shorter, a sequence without items gives one empty chunk, and an error takes the place
of the chunk under way.

Chunks that are read reserve room for all their items first. A size that no room can be reserved for
is an error before the first item.
-/

namespace PrivateFootage

/-- Cut the rest of a sequence into chunks of `size` items. The chunk under way, of length `count`,
and the chunks already cut are held in reverse order. -/
def cutFrom {β : Type} (size : Nat) (cut : List (Outcome (List β))) (chunk : List β) (count : Nat) :
    List (Outcome β) → List (Outcome (List β))
  | [] =>
    if chunk.isEmpty && !cut.isEmpty then cut.reverse else (.ok chunk.reverse :: cut).reverse
  | .error error :: _ => (.error error :: cut).reverse
  | .ok item :: rest =>
    if count + 1 < size then cutFrom size cut (item :: chunk) (count + 1) rest
    else cutFrom size (.ok (item :: chunk).reverse :: cut) [] 0 rest

/-- Cut a sequence into chunks of `size` items; a size of zero counts as one. -/
def cutChunks {β : Type} (size : Nat) (items : List (Outcome β)) : List (Outcome (List β)) :=
  cutFrom size [] [] 0 items

/-- The largest number of items that room is reserved for. An item takes three words of eight bytes,
and all of them together fewer bytes than a signed word counts. -/
def chunkCapacity : Nat := 384307168202282325

/-- Read a sequence as chunks of `size` items, reserving the room for a chunk before it is filled. -/
def readChunks {β : Type} (size : Nat) (items : List (Outcome β)) : List (Outcome (List β)) :=
  if chunkCapacity < size then [.error .capacity] else cutChunks size items

/-- Put the next item of a sequence to each row, as long as both go on. An error of either ends the
result, the rows' error first. Finished rows are held in reverse order. -/
def extendRows {β : Type} (extended : List (Outcome (List β))) :
    List (Outcome (List β)) → List (Outcome β) → List (Outcome (List β))
  | .ok row :: rows, .ok item :: items => extendRows (.ok (row ++ [item]) :: extended) rows items
  | .error error :: _, _ => (.error error :: extended).reverse
  | .ok _ :: _, .error error :: _ => (.error error :: extended).reverse
  | _, _ => extended.reverse

/-- Read several sequences in step: one row for each position, until one of them ends. -/
def lockstep {β : Type} : List (List (Outcome β)) → List (Outcome (List β))
  | [] => []
  | first :: rest =>
    rest.foldl (extendRows []) (first.map fun item => item.map fun value => [value])

/-- Join several lists by position, until the shortest ends. -/
def joinRows {β : Type} : List (List β) → List (List β)
  | [] => []
  | first :: rest =>
    rest.foldl (fun rows items => List.zipWith (fun row item => row ++ [item]) rows items)
      (first.map fun value => [value])

end PrivateFootage
