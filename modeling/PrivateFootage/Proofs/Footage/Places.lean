import Mathlib
import PrivateFootage.Proofs.Decimal.Digits
import PrivateFootage.Proofs.Footage.Reading
import PrivateFootage.Proofs.Store.Adding

/-!
# Where footage is kept

The files of a video stand beside the folder of stored results, never in it: they are below one of two
folders of their own, or right below the data if the name of the video leads back up there, and their
names end otherwise than that of the results folder. So adding a stored result leaves all footage as it
is.
-/

namespace PrivateFootage

namespace Store

variable {before after : Store} {root : List String} {name : String} {content : ByteArray}

/-- A place below a directory is outside every folder but the one on the way to it. -/
theorem outside_of_head {folder : String} {rest : List String} (hhead : rest.head? ≠ some folder) :
    Outside (root ++ [folder]) (root ++ rest) := by
  constructor
  · intro hsame
    rw [List.append_cancel_left hsame] at hhead
    exact hhead rfl
  · intro other hsame
    rw [List.append_assoc] at hsame
    rw [List.append_cancel_left hsame] at hhead
    exact hhead rfl

/-- A name leads one step down. -/
theorem next_plain {here : List String} {part : String} (hpart : IsPlain part) :
    next here part = here ++ [part] := by
  rw [next, if_neg (not_or.mpr ⟨hpart.ne_empty, hpart.ne_dot⟩), if_neg hpart.ne_dots]

/-- A file of a video in one folder is outside any other folder, whatever the video is called. -/
theorem avoids_file {folder other video file : String} (hother : IsPlain other) (hfile : IsPlain file)
    (hfolder : other ≠ folder) (hname : file ≠ folder) :
    Avoids (root ++ [folder]) root [other, video, file] := by
  -- The video may stay in the other folder, lead back up, or name a directory in that folder.
  obtain ⟨rest, hvideo, hhead, hinside⟩ : ∃ rest, next (root ++ [other]) video = root ++ rest ∧
      rest.head? ≠ some folder ∧ (rest ++ [file]).head? ≠ some folder := by
    unfold next
    split_ifs
    · exact ⟨[other], rfl, by simpa using hfolder, by simpa using hfolder⟩
    · exact ⟨[], by simp, by simp, by simpa using hname⟩
    · exact ⟨[other, video], by simp, by simpa using hfolder, by simpa using hfolder⟩
  have hroot : Outside (root ++ [folder]) root := by
    have hempty : Outside (root ++ [folder]) (root ++ []) := outside_of_head (by simp)
    rwa [List.append_nil] at hempty
  refine ⟨hroot, ?_⟩
  rw [next_plain hother]
  refine ⟨outside_of_head (by simpa using hfolder), ?_⟩
  rw [hvideo]
  refine ⟨outside_of_head hhead, ?_⟩
  rw [next_plain hfile, List.append_assoc]
  exact outside_of_head hinside

/-- Reading a path that leads past a folder does not depend on the files in the folder. -/
theorem Adds.read_eq {directory parts : List String} {base path : String}
    (hadds : Adds before after directory name content) (hbase : before.descend base = .ok root)
    (hpath : ∀ store : Store, store.locate path =
      store.descend base >>= fun here => store.follow here parts)
    (havoids : Avoids directory root parts) : after.read path = before.read path := by
  obtain ⟨hfollow, houtside⟩ := hadds.follow_avoids havoids
  have hafter : after.locate path = before.follow root parts := by
    rw [hpath, hadds.descend_eq hbase, ← hfollow]
    rfl
  have hbefore : before.locate path = before.follow root parts := by
    rw [hpath, hbase]
    rfl
  refine read_congr (hafter.trans hbefore.symm) fun place hplace => ?_
  rw [hbefore] at hplace
  exact hadds.entry?_outside (houtside place hplace)

end Store

variable {α : Type} [Scalar α] {before after : Store}

/-- The frames of files that read the same are the same. -/
theorem readFrames_congr {indices : List ℕ} {paths : List String}
    (hread : ∀ path ∈ paths, after.read path = before.read path) :
    (readFrames after indices paths : List (Outcome (Frame α))) = readFrames before indices paths := by
  induction paths with
  | nil => rfl
  | cons path paths ih =>
    have hhour : (readHour after path : Outcome (List (Row α))) = readHour before path := by
      rw [readHour, readHour, hread path (List.mem_cons_self ..)]
    rw [readFrames, readFrames, hhour, ih fun other hother => hread other (List.mem_cons_of_mem _ hother)]

namespace Footage

variable {footage : Footage} {hour : UInt32} {region : Option ℕ}

/-- A path of an hour names its file. -/
theorem eq_file_of_hourPath {path : String} (hpath : footage.hourPath hour region = .ok path) :
    path = footage.file hour region := by
  unfold hourPath at hpath
  dsimp only at hpath
  split at hpath <;> cases hpath <;> simp [file, directory, fileName, regionEnding, *]

/-- The chunks of footage whose files read the same are the same. -/
theorem chunks_congr
    (hread : ∀ hour region, after.read (footage.file hour region) = before.read (footage.file hour region))
    (region : Option ℕ) :
    (footage.chunks after region : Outcome (List (Outcome (Chunk α)))) = footage.chunks before region := by
  unfold chunks frames
  cases hpaths : footage.hours.mapM fun hour => footage.hourPath hour region with
  | error error => rfl
  | ok paths =>
    have hsame : ∀ path ∈ paths, after.read path = before.read path := by
      intro path hpath
      obtain ⟨hour, -, hhour⟩ := exists_left_of_forall₂ (Outcome.mapM_eq_ok_iff.mp hpaths) hpath
      rw [eq_file_of_hourPath hhour]
      exact hread hour region
    have hframes : (readFrames after footage.decimation.frames paths : List (Outcome (Frame α))) =
        readFrames before footage.decimation.frames paths := readFrames_congr hsame
    change Except.map _ (.ok (readFrames after footage.decimation.frames paths)) = _
    rw [hframes]
    rfl

/-- Footage that is read to its end has a file that can be read. -/
theorem exists_read_of_chunks {store : Store} {chunks : List (Chunk α)} (hhours : footage.hours ≠ [])
    (hregion : footage.HasRegion region) (hchunks : footage.chunks store region = .ok (chunks.map .ok)) :
    ∃ hour content, store.read (footage.file hour region) = .ok content := by
  obtain ⟨hour, hours, hcons⟩ := List.exists_cons_of_ne_nil hhours
  have hpaths : footage.paths region =
      footage.file hour region :: hours.map fun hour => footage.file hour region := by
    rw [paths, hcons]
    rfl
  rw [chunks_eq_ok hregion, hpaths, Except.ok.injEq, readFrames] at hchunks
  replace hchunks := cutChunks_of_readChunks hchunks
  refine ⟨hour, ?_⟩
  cases hread : store.read (footage.file hour region) with
  | ok content => exact ⟨content, rfl⟩
  | error fault =>
    have herror : ∃ error, (readHour store (footage.file hour region) : Outcome (List (Row α))) =
        .error error := by
      rw [readHour, hread]
      cases fault <;> exact ⟨_, rfl⟩
    obtain ⟨error, herror⟩ := herror
    rw [herror] at hchunks
    exact absurd ⟨error, hchunks ▸ List.mem_singleton_self _⟩ (not_breaksOff_map_ok chunks)

/-- The name of a file ends in the last letter of its extension. -/
theorem getLast?_fileName : (footage.fileName hour region).toList.getLast? = some 'v' := by
  have hending : ∃ front, (footage.fileName hour region).toList = front ++ ".csv".toList := by
    refine ⟨(s!"{footage.video}{hour.toNat}{regionEnding region}").toList, ?_⟩
    rw [← String.toList_append]
    rfl
  obtain ⟨front, hfront⟩ := hending
  rw [hfront, List.getLast?_append_of_ne_nil _ (by decide)]
  decide

/-- A file name differs from every text with another last letter. -/
theorem fileName_ne {text : String} (htext : text.toList.getLast? ≠ some 'v') :
    footage.fileName hour region ≠ text := by
  rintro rfl
  exact htext getLast?_fileName

/-- A file name is a name. -/
theorem isPlain_fileName : Store.IsPlain (footage.fileName hour region) :=
  ⟨fileName_ne (by decide), fileName_ne (by decide), fileName_ne (by decide)⟩

/-- A file name has no slash if the name of the video has none. -/
theorem slash_notMem_fileName (hvideo : '/' ∉ footage.video.toList) :
    '/' ∉ (footage.fileName hour region).toList := by
  have hdigits : ∀ value : ℕ, '/' ∉ (toString value).toList := by
    intro value
    rw [Nat.toString_eq_ofList_toDigits, String.toList_ofList]
    exact Decimal.notMem_digitChars (by decide) value
  have hending : '/' ∉ (regionEnding region).toList := by
    cases region with
    | none => decide
    | some region =>
      rw [regionEnding, String.toList_append, List.mem_append, not_or]
      exact ⟨by decide, hdigits region⟩
  rw [fileName]
  simp only [String.toList_append, List.mem_append, not_or]
  exact ⟨⟨⟨hvideo, hdigits _⟩, hending⟩, by decide⟩

/-- The folder of the files of a rendition. -/
def folder (footage : Footage) : String :=
  match footage.rendition with
  | .unmasked => "features"
  | .masked | .maskedRegions | .reserved => "masked_features"

/-- The folder of the files is a folder, and not that of stored results. -/
theorem isFolder_folder : Store.IsFolder footage.folder ∧ footage.folder ≠ "query_results" := by
  unfold folder
  cases footage.rendition <;> exact ⟨⟨⟨by decide, by decide, by decide⟩, by decide⟩, by decide⟩

/-- The footage below a path for data. -/
structure IsBelow (footage : Footage) (base : String) : Prop where
  directory_eq : footage.directory = Path.join base footage.folder
  video_free : '/' ∉ footage.video.toList

/-- The way to a file of footage. -/
theorem IsBelow.locate_file {base : String} (hbelow : footage.IsBelow base) (store : Store) :
    store.locate (footage.file hour region) =
      store.descend base >>= fun here =>
        store.follow here [footage.folder, footage.video, footage.fileName hour region] := by
  obtain ⟨hdirectory, hvideo⟩ := hbelow
  have hfolder := footage.isFolder_folder.1.no_slash
  have hfile : '/' ∉ (footage.fileName hour region).toList := slash_notMem_fileName hvideo
  rw [file, hdirectory, Store.locate_eq_descend (Path.join_ne_empty isPlain_fileName.ne_empty _),
    Store.descend_join (Path.isAbsolute_of_notMem hfile),
    Store.descend_join (Path.isAbsolute_of_notMem hvideo),
    Store.descend_join (Path.isAbsolute_of_notMem hfolder), Path.parts_of_notMem hfile,
    Path.parts_of_notMem hvideo, Path.parts_of_notMem hfolder, bind_assoc, bind_assoc]
  congr 1
  funext here
  simp only [← Store.follow_append, List.singleton_append]

/-- A file of footage that is read stands below a directory. -/
theorem IsBelow.exists_root {base : String} (hbelow : footage.IsBelow base) {content : ByteArray}
    {store : Store} (hread : store.read (footage.file hour region) = .ok content) :
    ∃ root, store.descend base = .ok root ∧ store.IsDirectory root := by
  obtain ⟨place, hplace, -⟩ := Store.read_eq_ok_iff.mp hread
  rw [hbelow.locate_file, Outcome.bind_eq_ok] at hplace
  obtain ⟨root, hroot, hfollow⟩ := hplace
  exact ⟨root, hroot, Store.isDirectory_of_follow hfollow⟩

/-- Adding a stored result leaves the files of footage as they are. -/
theorem IsBelow.read_file_eq {base name : String} (hbelow : footage.IsBelow base) {root : List String}
    {content : ByteArray} (hroot : before.descend base = .ok root)
    (hadds : Store.Adds before after (root ++ ["query_results"]) name content) :
    after.read (footage.file hour region) = before.read (footage.file hour region) := by
  obtain ⟨hfolder, hresults⟩ := footage.isFolder_folder
  exact hadds.read_eq hroot hbelow.locate_file
    (Store.avoids_file hfolder.toIsPlain isPlain_fileName hresults (fileName_ne (by decide)))

end Footage

end PrivateFootage
