import Mathlib
import PrivateFootage.Proofs.Store.Write

/-!
# Adding a file to a directory

A directory below one that exists is made if it is missing, and a file is put into it. If the directory
holds files only, a name with slashes in it leads nowhere, so exactly one file is added or replaced.
Paths that do not visit the directory lead where they led before.
-/

namespace PrivateFootage

namespace Path

/-- A path with one part is that part. -/
theorem eq_of_parts_eq_singleton {path part : String} (hparts : parts path = [part]) : path = part := by
  obtain ⟨piece, pieces, hsplit⟩ := Text.exists_split_eq_cons '/' path.toList
  rw [parts, Text.splitString, hsplit, List.map_cons, List.cons.injEq, List.map_eq_nil_iff] at hparts
  have hjoin := Text.intercalate_split '/' path.toList
  rw [hsplit, hparts.2, List.intercalate_singleton] at hjoin
  rw [← hparts.1, hjoin, String.ofList_toList]

end Path

namespace Store

variable {before after store prepared : Store} {directory here : List String} {name : String}
  {content : ByteArray}

/-- Paths that lead somewhere still do as long as directories are kept. -/
theorem descend_of_isDirectory (hworking : after.working = before.working)
    (hkept : ∀ place, before.IsDirectory place → after.IsDirectory place) {path : String}
    {place : List String} (hpath : before.descend path = .ok place) : after.descend path = .ok place := by
  have horigin : after.origin path = before.origin path := by
    rw [origin, origin, hworking]
  rw [descend, horigin]
  exact follow_of_isDirectory hkept hpath

/-- One store is another with one more file in a directory, which may be new as well. -/
structure Adds (before after : Store) (directory : List String) (name : String)
    (content : ByteArray) : Prop where
  working_eq : after.working = before.working
  entry?_eq : ∀ place, after.entry? place =
    if place = directory ++ [name] then some (.file content)
    else if place = directory then some .directory
    else before.entry? place
  not_isDirectory : ¬before.IsDirectory (directory ++ [name])

/-- Adding a file keeps the directories. -/
theorem Adds.isDirectory (hadds : Adds before after directory name content) {place : List String}
    (hplace : before.IsDirectory place) : after.IsDirectory place := by
  rw [IsDirectory, hadds.entry?_eq]
  split_ifs with hfile hsame
  · exact absurd (hfile ▸ hplace) hadds.not_isDirectory
  · rfl
  · exact hplace

/-- Paths that lead somewhere still do after a file is added. -/
theorem Adds.descend_eq (hadds : Adds before after directory name content) {path : String}
    {place : List String} (hpath : before.descend path = .ok place) : after.descend path = .ok place :=
  descend_of_isDirectory hadds.working_eq (fun _ => hadds.isDirectory) hpath

/-! ### Paths outside the directory -/

/-- A place that is neither a directory nor in it. -/
def Outside (directory place : List String) : Prop :=
  place ≠ directory ∧ ∀ name, place ≠ directory ++ [name]

/-- The place that one part of a path leads to. -/
def next (here : List String) (part : String) : List String :=
  if part = "" ∨ part = "." then here else if part = ".." then here.dropLast else here ++ [part]

/-- The parts of a path lead past a directory. -/
def Avoids (directory : List String) : List String → List String → Prop
  | here, [] => Outside directory here
  | here, part :: rest => Outside directory here ∧ Avoids directory (next here part) rest

/-- Adding a file to a directory changes nothing outside it. -/
theorem Adds.entry?_outside (hadds : Adds before after directory name content) {place : List String}
    (hplace : Outside directory place) : after.entry? place = before.entry? place := by
  rw [hadds.entry?_eq, if_neg (hplace.2 name), if_neg hplace.1]

/-- A path past the directory leads to the same place, with the same entry. -/
theorem Adds.follow_avoids (hadds : Adds before after directory name content) {parts : List String}
    (havoids : Avoids directory here parts) :
    after.follow here parts = before.follow here parts ∧
      ∀ place, before.follow here parts = .ok place → Outside directory place := by
  induction parts generalizing here with
  | nil =>
    refine ⟨rfl, fun place hplace => ?_⟩
    cases hplace
    exact havoids
  | cons part rest ih =>
    obtain ⟨houtside, hrest⟩ := havoids
    have hstep := ih hrest
    rw [follow, follow, hadds.entry?_outside houtside]
    cases before.entry? here with
    | none => exact ⟨rfl, fun place hplace => by cases hplace⟩
    | some entry =>
      cases entry with
      | file content => exact ⟨rfl, fun place hplace => by cases hplace⟩
      | directory =>
        unfold next at hstep
        dsimp only
        split_ifs at hstep ⊢
        · exact hstep
        · exact hstep
        · exact hstep
        · exact ⟨rfl, fun place hplace => by cases hplace⟩

/-! ### Making the directory and writing the file -/

/-- A directory that holds nothing but files. -/
def HoldsFiles (store : Store) (directory : List String) : Prop :=
  ∀ name entry, store.entry? (directory ++ [name]) = some entry → ∃ content, entry = .file content

/-- Making one directory leaves a store as it is if the directory is there, and puts it otherwise. -/
theorem makeAlong_plain {folder : String} (hfolder : IsPlain folder)
    (hmake : store.makeAlong here [folder] = .ok prepared) :
    isName folder = true ∧ prepared.working = store.working ∧
      ∀ place, prepared.entry? place =
        if place = here ++ [folder] then some .directory else store.entry? place := by
  rw [makeAlong, if_neg (not_or.mpr ⟨hfolder.ne_empty, hfolder.ne_dot⟩), if_neg hfolder.ne_dots] at hmake
  have hname : isName folder = true := by
    by_contra hbad
    rw [if_neg hbad] at hmake
    cases hmake
  rw [if_pos hname] at hmake
  dsimp only at hmake
  refine ⟨hname, ?_⟩
  cases hentry : store.entry? (here ++ [folder]) with
  | none =>
    rw [hentry] at hmake
    cases hmake
    exact ⟨rfl, fun place => entry?_put (by simp) _ place⟩
  | some entry =>
    rw [hentry] at hmake
    cases entry with
    | file content => cases hmake
    | directory =>
      cases hmake
      refine ⟨rfl, fun place => ?_⟩
      split_ifs with hplace
      · rw [hplace, hentry]
      · rfl

/-- A name of an entry without slashes. -/
structure IsFolder (part : String) : Prop extends IsPlain part where
  no_slash : '/' ∉ part.toList

/-- A relative path whose first part is a name. -/
structure StartsPlain (path : String) : Prop where
  relative : Path.isAbsolute path = false
  first : ∃ first rest, Path.parts path = first :: rest ∧ IsPlain first

/-- A path whose first part is a name is not empty. -/
theorem StartsPlain.ne_empty {path : String} (hpath : StartsPlain path) : path ≠ "" := by
  rintro rfl
  obtain ⟨first, rest, hparts, hfirst⟩ := hpath.first
  exact hfirst.ne_empty (List.cons.inj hparts).1.symm

variable {base folder : String}

/-- The place of a folder below a path that leads somewhere. -/
theorem locate_folder_eq_ok_iff (hfolder : IsFolder folder)
    (hbase : store.descend base = .ok here) {place : List String} :
    store.locate (Path.join base folder) = .ok place ↔
      store.IsDirectory here ∧ isName folder = true ∧ place = here ++ [folder] := by
  have hlocate : store.locate (Path.join base folder) = store.follow here [folder] := by
    rw [locate_eq_descend (Path.join_ne_empty hfolder.ne_empty base),
      descend_join (Path.isAbsolute_of_notMem hfolder.no_slash), hbase,
      Path.parts_of_notMem hfolder.no_slash]
    rfl
  rw [hlocate, follow_plain_eq_ok_iff hfolder.toIsPlain, follow, Except.ok.injEq, eq_comm (a := place)]

/-- A file whose name has slashes in it asks for a directory among the files, so a path that leads to
something in a directory of files leads to a file of that name. -/
theorem follow_file_eq_ok (hfiles : store.HoldsFiles directory) (hname : StartsPlain name)
    {place : List String} (hfollow : store.follow directory (Path.parts name) = .ok place) :
    place = directory ++ [name] := by
  obtain ⟨first, rest, hparts, hfirst⟩ := hname.first
  rw [hparts] at hfollow
  obtain ⟨-, -, hfollow⟩ := (follow_plain_eq_ok_iff hfirst).mp hfollow
  cases rest with
  | nil =>
    rw [Path.eq_of_parts_eq_singleton hparts]
    exact (Except.ok.inj hfollow).symm
  | cons second rest =>
    obtain ⟨content, hfile⟩ := hfiles first .directory (isDirectory_of_follow hfollow)
    cases hfile

/-- The place of a file in a folder of files. -/
theorem locate_file_eq_ok (hfolder : IsFolder folder)
    (hfiles : ∀ place, store.locate (Path.join base folder) = .ok place → store.HoldsFiles place)
    (hname : StartsPlain name) {place : List String}
    (hplace : store.locate (Path.join (Path.join base folder) name) = .ok place) :
    ∃ here, store.descend base = .ok here ∧
      store.locate (Path.join base folder) = .ok (here ++ [folder]) ∧
      place = here ++ [folder] ++ [name] := by
  rw [locate_eq_descend (Path.join_ne_empty hname.ne_empty _), descend_join hname.relative,
    descend_join (Path.isAbsolute_of_notMem hfolder.no_slash),
    Path.parts_of_notMem hfolder.no_slash, bind_assoc, Outcome.bind_eq_ok] at hplace
  obtain ⟨here, hbase, hplace⟩ := hplace
  obtain ⟨directory, hdirectory, hplace⟩ := Outcome.bind_eq_ok.mp hplace
  obtain ⟨hhere, hfolderName, hdirectory⟩ := (follow_plain_eq_ok_iff hfolder.toIsPlain).mp hdirectory
  rw [follow, Except.ok.injEq] at hdirectory
  subst hdirectory
  have hlocate := (locate_folder_eq_ok_iff hfolder hbase).mpr ⟨hhere, hfolderName, rfl⟩
  exact ⟨here, hbase, hlocate, follow_file_eq_ok (hfiles _ hlocate) hname hplace⟩

/-- Making a folder below a directory leaves the files in it and everything outside it as they are. -/
theorem makeDirectory_folder (hfolder : IsFolder folder)
    (hbase : store.descend base = .ok here) (hhere : store.IsDirectory here)
    (hmake : store.makeDirectory (Path.join base folder) = .ok prepared) :
    isName folder = true ∧ prepared.working = store.working ∧
      ∀ place, prepared.entry? place =
        if place = here ++ [folder] then some .directory else store.entry? place := by
  rw [makeDirectory_join (Path.isAbsolute_of_notMem hfolder.no_slash) hfolder.ne_empty hbase hhere,
    Path.parts_of_notMem hfolder.no_slash] at hmake
  exact makeAlong_plain hfolder.toIsPlain hmake

/-- Making a folder that holds files only and writing a file in it adds just that file. -/
theorem adds_of_write (hfolder : IsFolder folder)
    (hbase : store.descend base = .ok here) (hhere : store.IsDirectory here)
    (hfiles : ∀ place, store.locate (Path.join base folder) = .ok place → store.HoldsFiles place)
    (hname : StartsPlain name)
    (hmake : store.makeDirectory (Path.join base folder) = .ok prepared)
    (hwrite : prepared.write (Path.join (Path.join base folder) name) content = .ok after) :
    store.locate (Path.join base folder) = .ok (here ++ [folder]) ∧
      Adds store after (here ++ [folder]) name content := by
  obtain ⟨hfolderName, hworking, hentries⟩ := makeDirectory_folder hfolder hbase hhere hmake
  have hlocate := (locate_folder_eq_ok_iff hfolder hbase).mpr ⟨hhere, hfolderName, rfl⟩
  have hkept : ∀ place, store.IsDirectory place → prepared.IsDirectory place := by
    intro place hplace
    rw [IsDirectory, hentries]
    split_ifs
    · rfl
    · exact hplace
  have hbase' : prepared.descend base = .ok here := descend_of_isDirectory hworking hkept hbase
  have hfiles' : ∀ place, prepared.locate (Path.join base folder) = .ok place →
      prepared.HoldsFiles place := by
    intro place hplace other entry hentry
    obtain ⟨-, -, rfl⟩ := (locate_folder_eq_ok_iff hfolder hbase').mp hplace
    rw [hentries, if_neg (by simp)] at hentry
    exact hfiles _ hlocate other entry hentry
  obtain ⟨place, hplace, hfree, rfl⟩ := write_eq_ok_iff.mp hwrite
  obtain ⟨other, hother, -, rfl⟩ :=
    locate_file_eq_ok hfolder hfiles' hname hplace
  rw [hbase', Except.ok.injEq] at hother
  subst hother
  refine ⟨hlocate, hworking, fun place => ?_, fun hdirectory => hfree (hkept _ hdirectory)⟩
  rw [entry?_put (by simp), hentries]

/-- Reading a file of a folder of files finds it there. -/
theorem entry?_of_read (hfolder : IsFolder folder)
    (hfiles : ∀ place, store.locate (Path.join base folder) = .ok place → store.HoldsFiles place)
    (hname : StartsPlain name)
    (hread : store.read (Path.join (Path.join base folder) name) = .ok content) :
    ∃ place, store.locate (Path.join base folder) = .ok place ∧
      store.entry? (place ++ [name]) = some (.file content) := by
  obtain ⟨place, hplace, hentry⟩ := read_eq_ok_iff.mp hread
  obtain ⟨here, -, hlocate, rfl⟩ :=
    locate_file_eq_ok hfolder hfiles hname hplace
  exact ⟨_, hlocate, hentry⟩

end Store

end PrivateFootage
