import Mathlib
import PrivateFootage.Proofs.Text.Split
import PrivateFootage.Store.Basic

/-!
# Following paths

A joined path leads where its first path leads and on along its second. The slash that joining puts in,
or finds at the end of the first path, makes no difference: an empty part stays in place, and every
part asks for a directory to start from. A path that leads somewhere still leads there as long as
directories stay.
-/

namespace PrivateFootage

namespace Path

variable {base part : String}

/-- A path has at least one part. -/
theorem parts_ne_nil (path : String) : parts path ≠ [] := by
  rw [parts, Text.splitString, ne_eq, List.map_eq_nil_iff]
  exact Text.split_ne_nil _ _

/-- The parts of two paths with a slash between them. -/
theorem parts_append (base part : String) : parts (base ++ "/" ++ part) = parts base ++ parts part := by
  have hchars : (base ++ "/" ++ part).toList = base.toList ++ '/' :: part.toList := by simp
  rw [parts, Text.splitString, hchars, Text.split_append, List.map_append]
  rfl

/-- A path without slashes is its only part. -/
theorem parts_of_notMem (hfree : '/' ∉ part.toList) : parts part = [part] := by
  rw [parts, Text.splitString, Text.split_of_notMem hfree, List.map_singleton, String.ofList_toList]

/-- A path without slashes is relative. -/
theorem isAbsolute_of_notMem (hfree : '/' ∉ part.toList) : isAbsolute part = false := by
  rw [isAbsolute, decide_eq_false_iff_not]
  intro hhead
  exact hfree (List.mem_of_mem_head? hhead)

/-- What a path starts from does not depend on what is added to it. -/
theorem isAbsolute_append (hbase : base ≠ "") (more : String) :
    isAbsolute (base ++ more) = isAbsolute base := by
  have hchars : base.toList ≠ [] := fun h => hbase (String.toList_eq_nil_iff.mp h)
  rw [isAbsolute, isAbsolute, String.toList_append, List.head?_append_of_ne_nil _ hchars]

/-- A joined path starts from where its first path starts from. -/
theorem isAbsolute_join (hpart : isAbsolute part = false) (base : String) :
    isAbsolute (join base part) = isAbsolute base := by
  unfold join
  rw [hpart, Bool.false_or]
  by_cases hbase : base = ""
  · rw [if_pos (by simp [hbase]), hpart, hbase]
    rfl
  · rw [if_neg (by simpa using hbase)]
    split
    · exact isAbsolute_append hbase part
    · rw [String.append_assoc]
      exact isAbsolute_append hbase _

/-- A joined path has the parts of both, save perhaps for an empty last part of the first. -/
theorem parts_join (hpart : isAbsolute part = false) (base : String) :
    ∃ before, parts (join base part) = before ++ parts part ∧
      (parts base = before ∨ parts base = before ++ [""]) := by
  unfold join
  rw [hpart, Bool.false_or]
  by_cases hbase : base = ""
  · rw [if_pos (by simp [hbase]), hbase]
    exact ⟨[], rfl, .inr rfl⟩
  · rw [if_neg (by simpa using hbase)]
    split
    · next hslash =>
      -- The slash at the end of the first path is the one between the two.
      obtain ⟨before, hchars⟩ := List.getLast?_eq_some_iff.mp hslash
      have hend : base = String.ofList before ++ "/" ++ "" := by
        apply String.toList_injective
        simp [hchars]
      refine ⟨parts (String.ofList before), ?_, .inr ?_⟩
      · rw [← parts_append, hend, String.append_empty]
      · rw [hend, parts_append]
        rfl
    · exact ⟨parts base, parts_append base part, .inl rfl⟩

/-- Joining a path that is not empty gives one that is not empty. -/
theorem join_ne_empty (hpart : part ≠ "") (base : String) : join base part ≠ "" := by
  unfold join
  split
  · exact hpart
  · split
    · intro h
      exact hpart (String.append_eq_empty_iff.mp h).2
    · intro h
      exact hpart (String.append_eq_empty_iff.mp h).2

end Path

namespace Store

variable {store after : Store} {here there : List String} {part : String} {rest : List String}

/-- A directory stands at a place. -/
def IsDirectory (store : Store) (place : List String) : Prop :=
  store.entry? place = some .directory

/-- The place that a path leads to, where the empty path stays. -/
def descend (store : Store) (path : String) : Except FileFault (List String) :=
  store.follow (store.origin path) (Path.parts path)

/-- A path that is not empty names the place that it leads to. -/
theorem locate_eq_descend {path : String} (hpath : path ≠ "") :
    store.locate path = store.descend path := by
  rw [locate, if_neg (by simpa using hpath), descend]

/-- Following parts asks for a directory to start from. -/
theorem follow_cons_of_isDirectory (hhere : store.IsDirectory here) :
    store.follow here (part :: rest) =
      if part = "" ∨ part = "." then store.follow here rest
      else if part = ".." then store.follow here.dropLast rest
      else if isName part then store.follow (here ++ [part]) rest
      else .error .badName := by
  rw [follow, hhere]

/-- Following parts that leads somewhere starts from a directory. -/
theorem isDirectory_of_follow (hfollow : store.follow here (part :: rest) = .ok there) :
    store.IsDirectory here := by
  rw [follow] at hfollow
  cases hentry : store.entry? here with
  | none =>
    rw [hentry] at hfollow
    cases hfollow
  | some entry =>
    cases entry with
    | file content =>
      rw [hentry] at hfollow
      cases hfollow
    | directory => exact hentry

/-- Following leads on from where its first parts lead. -/
theorem follow_append (here first second : List String) :
    store.follow here (first ++ second) =
      store.follow here first >>= fun there => store.follow there second := by
  induction first generalizing here with
  | nil => rfl
  | cons part first ih =>
    rw [List.cons_append, follow, follow]
    cases store.entry? here with
    | none => rfl
    | some entry =>
      cases entry with
      | file content => rfl
      | directory =>
        dsimp only
        split_ifs
        · exact ih here
        · exact ih here.dropLast
        · exact ih (here ++ [part])
        · rfl

/-- An empty part makes no difference to the parts behind it. -/
theorem follow_empty_part (hrest : rest ≠ []) : store.follow here ("" :: rest) = store.follow here rest := by
  obtain ⟨part, rest, rfl⟩ := List.exists_cons_of_ne_nil hrest
  rw [follow]
  cases hentry : store.entry? here with
  | none => rw [follow, hentry]
  | some entry =>
    cases entry with
    | file content => rw [follow, hentry]
    | directory => exact if_pos (.inl rfl)

/-- An empty part at the end makes no difference to where the parts before it lead. -/
theorem follow_of_append_empty_part {parts : List String}
    (hfollow : store.follow here (parts ++ [""]) = .ok there) : store.follow here parts = .ok there := by
  rw [follow_append] at hfollow
  cases hparts : store.follow here parts with
  | error fault =>
    rw [hparts] at hfollow
    cases hfollow
  | ok middle =>
    rw [hparts] at hfollow
    have hstay : store.follow middle [""] = .ok there := hfollow
    rw [follow_cons_of_isDirectory (isDirectory_of_follow hstay), if_pos (.inl rfl)] at hstay
    exact hstay

/-- A joined path starts where its first path starts. -/
theorem origin_join (hpart : Path.isAbsolute part = false) (base : String) :
    store.origin (Path.join base part) = store.origin base := by
  rw [origin, origin, Path.isAbsolute_join hpart]

/-- A joined path leads on from where its first path leads. -/
theorem descend_join (hpart : Path.isAbsolute part = false) (base : String) :
    store.descend (Path.join base part) =
      store.descend base >>= fun here => store.follow here (Path.parts part) := by
  obtain ⟨before, hjoin, hbase⟩ := Path.parts_join hpart base
  rw [descend, descend, origin_join hpart, hjoin]
  rcases hbase with hbase | hbase
  · rw [hbase, follow_append]
  · rw [hbase, follow_append, follow_append, bind_assoc]
    congr 1
    funext there
    rw [← follow_append, List.singleton_append, follow_empty_part (Path.parts_ne_nil part)]

/-- A path that leads somewhere leads there as long as directories stay. -/
theorem follow_of_isDirectory {parts : List String}
    (hkept : ∀ place, store.IsDirectory place → after.IsDirectory place)
    (hfollow : store.follow here parts = .ok there) : after.follow here parts = .ok there := by
  induction parts generalizing here with
  | nil => exact hfollow
  | cons part rest ih =>
    have hhere := isDirectory_of_follow hfollow
    rw [follow_cons_of_isDirectory hhere] at hfollow
    rw [follow_cons_of_isDirectory (hkept here hhere)]
    split_ifs at hfollow ⊢
    · exact ih hfollow
    · exact ih hfollow
    · exact ih hfollow

/-- A part that names an entry of a directory, as `.` and `..` do not. -/
structure IsPlain (part : String) : Prop where
  ne_empty : part ≠ ""
  ne_dot : part ≠ "."
  ne_dots : part ≠ ".."

/-- Following a name leads into a directory. -/
theorem follow_plain_eq_ok_iff (hplain : IsPlain part) :
    store.follow here (part :: rest) = .ok there ↔
      store.IsDirectory here ∧ isName part = true ∧ store.follow (here ++ [part]) rest = .ok there := by
  constructor
  · intro hfollow
    have hhere := isDirectory_of_follow hfollow
    rw [follow_cons_of_isDirectory hhere, if_neg (not_or.mpr ⟨hplain.ne_empty, hplain.ne_dot⟩),
      if_neg hplain.ne_dots] at hfollow
    split_ifs at hfollow with hname
    exact ⟨hhere, hname, hfollow⟩
  · rintro ⟨hhere, hname, hfollow⟩
    rw [follow_cons_of_isDirectory hhere, if_neg (not_or.mpr ⟨hplain.ne_empty, hplain.ne_dot⟩),
      if_neg hplain.ne_dots, if_pos hname, hfollow]

/-- Parts that lead to a directory lead through directories only. -/
theorem isDirectory_of_follow_isDirectory {parts : List String} (hthere : store.IsDirectory there)
    (hfollow : store.follow here parts = .ok there) : store.IsDirectory here := by
  cases parts with
  | nil =>
    cases hfollow
    exact hthere
  | cons part rest => exact isDirectory_of_follow hfollow

/-- Making directories makes none on the way to a directory that is there. -/
theorem makeAlong_append {first : List String} (hthere : store.IsDirectory there)
    (hfollow : store.follow here first = .ok there) (second : List String) :
    store.makeAlong here (first ++ second) = store.makeAlong there second := by
  induction first generalizing here with
  | nil =>
    cases hfollow
    rfl
  | cons part first ih =>
    have hhere := isDirectory_of_follow hfollow
    rw [follow_cons_of_isDirectory hhere] at hfollow
    rw [List.cons_append, makeAlong]
    split_ifs at hfollow with hstay hup hname
    · rw [if_pos hstay]
      exact ih hfollow
    · rw [if_neg hstay, if_pos hup]
      exact ih hfollow
    · have hnext : store.entry? (here ++ [part]) = some .directory :=
        isDirectory_of_follow_isDirectory hthere hfollow
      rw [if_neg hstay, if_neg hup, if_pos hname]
      dsimp only
      rw [hnext]
      exact ih hfollow

/-- Making a directory below one that is there. -/
theorem makeDirectory_join {base : String} (hpart : Path.isAbsolute part = false) (hname : part ≠ "")
    (hbase : store.descend base = .ok there) (hthere : store.IsDirectory there) :
    store.makeDirectory (Path.join base part) = store.makeAlong there (Path.parts part) := by
  obtain ⟨before, hjoin, hparts⟩ := Path.parts_join hpart base
  rw [makeDirectory, if_neg (by simpa using Path.join_ne_empty hname base), origin_join hpart, hjoin]
  rcases hparts with hparts | hparts
  · rw [descend, hparts] at hbase
    exact makeAlong_append hthere hbase _
  · rw [descend, hparts] at hbase
    exact makeAlong_append hthere (follow_of_append_empty_part hbase) _

end Store

end PrivateFootage
