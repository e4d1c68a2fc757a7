/-!
# The catalog of videos

Which hours of which videos have been recorded, in the order of the video names. Putting a video
into the catalog replaces an earlier entry of the same name.
-/

namespace PrivateFootage

/-- The recorded hours of each video, ordered by name. -/
structure Catalog where
  entries : List (String × List UInt32)
  sorted : entries.Pairwise fun a b => a.1 < b.1
deriving DecidableEq

namespace Catalog

/-- Put an entry at its place among ordered entries. -/
def insertEntry (name : String) (hours : List UInt32) :
    List (String × List UInt32) → List (String × List UInt32)
  | [] => [(name, hours)]
  | first :: rest =>
    if name < first.1 then (name, hours) :: first :: rest
    else if first.1 < name then first :: insertEntry name hours rest
    else (name, hours) :: rest

/-- The names after putting an entry are the old ones and the new one. -/
theorem mem_insertEntry {name : String} {hours : List UInt32} {entry : String × List UInt32} :
    ∀ {entries : List (String × List UInt32)}, entry ∈ insertEntry name hours entries →
      entry = (name, hours) ∨ entry ∈ entries
  | [], member => by simpa [insertEntry] using member
  | first :: rest, member => by
    unfold insertEntry at member
    split at member
    · simpa using member
    · split at member
      · rcases List.mem_cons.mp member with isFirst | inRest
        · exact .inr (isFirst ▸ List.mem_cons_self)
        · rcases mem_insertEntry inRest with isNew | old
          · exact .inl isNew
          · exact .inr (List.mem_cons_of_mem _ old)
      · rcases List.mem_cons.mp member with isNew | old
        · exact .inl isNew
        · exact .inr (List.mem_cons_of_mem _ old)

/-- Putting an entry keeps the order of names. -/
theorem insertEntry_sorted (name : String) (hours : List UInt32) :
    ∀ {entries : List (String × List UInt32)}, entries.Pairwise (fun a b => a.1 < b.1) →
      (insertEntry name hours entries).Pairwise fun a b => a.1 < b.1
  | [], _ => by simp [insertEntry]
  | first :: rest, ordered => by
    have ⟨below, restOrdered⟩ := List.pairwise_cons.mp ordered
    unfold insertEntry
    split
    · rename_i before
      refine List.pairwise_cons.mpr ⟨fun entry member => ?_, ordered⟩
      rcases List.mem_cons.mp member with isFirst | inRest
      · exact isFirst ▸ before
      · exact String.lt_trans before (below entry inRest)
    · split
      · rename_i after
        refine List.pairwise_cons.mpr
          ⟨fun entry member => ?_, insertEntry_sorted name hours restOrdered⟩
        rcases mem_insertEntry member with isNew | old
        · exact isNew ▸ after
        · exact below entry old
      · rename_i notBefore notAfter
        have same : name = first.1 := String.le_antisymm notAfter notBefore
        refine List.pairwise_cons.mpr ⟨fun entry member => ?_, restOrdered⟩
        exact same ▸ below entry member

/-- The catalog without videos. -/
def empty : Catalog := ⟨[], .nil⟩

/-- Put a video into the catalog. -/
def insert (catalog : Catalog) (name : String) (hours : List UInt32) : Catalog :=
  ⟨insertEntry name hours catalog.entries, insertEntry_sorted name hours catalog.sorted⟩

/-- The catalog of the given videos; of two with the same name the later counts. -/
def ofList (videos : List (String × List UInt32)) : Catalog :=
  videos.foldl (fun catalog (name, hours) => catalog.insert name hours) empty

/-- The recorded hours of a video. -/
def hours? (catalog : Catalog) (name : String) : Option (List UInt32) :=
  catalog.entries.lookup name

end Catalog

end PrivateFootage
