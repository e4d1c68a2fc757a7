import Mathlib
import PrivateFootage.Proofs.Store.Adding

/-!
# Making a directory

Making a directory that is there changes nothing. Otherwise the parts of its path lead through existing
directories up to one that is missing, and everything from there on is new, so the directory that is
made is empty. A part that goes up again could lead out of what is new, into a directory that nobody
could reach before; paths without such parts are considered here.
-/

namespace PrivateFootage.Store

variable {store prepared : Store} {here there : List String} {parts : List String} {path : String}

/-- A directory that is there is not made again. -/
theorem makeDirectory_of_isDirectory (hpath : store.descend path = .ok there)
    (hthere : store.IsDirectory there) : store.makeDirectory path = .ok store := by
  rw [makeDirectory]
  split
  · rfl
  · have hmake := makeAlong_append hthere hpath []
    rwa [List.append_nil, makeAlong] at hmake

/-- What one part of a path comes to when directories are made: it stays, it goes up, it goes into a
directory that is there, or it makes one. -/
theorem makeAlong_cons_cases {part : String} {rest : List String}
    (hmake : store.makeAlong here (part :: rest) = .ok prepared) :
    ((part = "" ∨ part = ".") ∧ store.makeAlong here rest = .ok prepared) ∨
    (part = ".." ∧ store.makeAlong here.dropLast rest = .ok prepared) ∨
    (IsPlain part ∧ isName part = true ∧ store.IsDirectory (here ++ [part]) ∧
      store.makeAlong (here ++ [part]) rest = .ok prepared) ∨
    (IsPlain part ∧ isName part = true ∧ store.entry? (here ++ [part]) = none ∧
      (store.put (here ++ [part]) .directory).makeAlong (here ++ [part]) rest = .ok prepared) := by
  rw [makeAlong] at hmake
  by_cases hstay : part = "" ∨ part = "."
  · rw [if_pos hstay] at hmake
    exact .inl ⟨hstay, hmake⟩
  rw [if_neg hstay] at hmake
  by_cases hup : part = ".."
  · rw [if_pos hup] at hmake
    exact .inr (.inl ⟨hup, hmake⟩)
  rw [if_neg hup] at hmake
  have hplain : IsPlain part := ⟨fun h => hstay (.inl h), fun h => hstay (.inr h), hup⟩
  by_cases hname : isName part = true
  · rw [if_pos hname] at hmake
    dsimp only at hmake
    cases hentry : store.entry? (here ++ [part]) with
    | none =>
      rw [hentry] at hmake
      exact .inr (.inr (.inr ⟨hplain, hname, rfl, hmake⟩))
    | some entry =>
      rw [hentry] at hmake
      cases entry with
      | file content => cases hmake
      | directory => exact .inr (.inr (.inl ⟨hplain, hname, hentry, hmake⟩))
  · rw [if_neg hname] at hmake
    cases hmake

/-- Putting a directory where nothing stands keeps the directories. -/
theorem isDirectory_put_directory {place other : List String} (hplace : place ≠ [])
    (hother : store.IsDirectory other) : (store.put place .directory).IsDirectory other := by
  rw [IsDirectory, entry?_put hplace]
  split_ifs
  · rfl
  · exact hother

/-- Making directories keeps the working directory and all directories that are there. -/
theorem makeAlong_keeps (hmake : store.makeAlong here parts = .ok prepared) :
    prepared.working = store.working ∧
      ∀ place, store.IsDirectory place → prepared.IsDirectory place := by
  induction parts generalizing store here with
  | nil =>
    cases hmake
    exact ⟨rfl, fun _ => id⟩
  | cons part rest ih =>
    rcases makeAlong_cons_cases hmake with ⟨-, hmake⟩ | ⟨-, hmake⟩ | ⟨-, -, -, hmake⟩ | ⟨-, -, -, hmake⟩
    · exact ih hmake
    · exact ih hmake
    · exact ih hmake
    · obtain ⟨hworking, hkept⟩ := ih hmake
      exact ⟨hworking, fun place hplace => hkept place (isDirectory_put_directory (by simp) hplace)⟩

/-- Every entry stands in a directory, and the working directory is one. -/
structure IsTree (store : Store) : Prop where
  working : store.IsDirectory store.working
  parent : ∀ place name entry, store.entry? (place ++ [name]) = some entry → store.IsDirectory place

/-- Nothing stands below a place. -/
def Bare (store : Store) (here : List String) : Prop :=
  ∀ name rest, store.entry? (here ++ name :: rest) = none

/-- Nothing stands below a place without a directory. -/
theorem IsTree.bare (htree : store.IsTree) (hhere : ¬store.IsDirectory here) : store.Bare here := by
  intro name rest
  induction rest using List.reverseRecOn with
  | nil =>
    cases hentry : store.entry? (here ++ [name]) with
    | none => rfl
    | some entry => exact absurd (htree.parent here name entry hentry) hhere
  | append_singleton rest last ih =>
    rw [← List.cons_append, ← List.append_assoc]
    cases hentry : store.entry? (here ++ name :: rest ++ [last]) with
    | none => rfl
    | some entry =>
      have hparent : store.entry? (here ++ name :: rest) = some .directory :=
        htree.parent _ last entry hentry
      rw [ih] at hparent
      cases hparent

/-- A place below a bare one is bare. -/
theorem Bare.below (hbare : store.Bare here) (part : String) : store.Bare (here ++ [part]) := by
  intro name rest
  rw [List.append_assoc]
  exact hbare part (name :: rest)

/-- A directory that is put in a bare place is empty. -/
theorem Bare.put_directory (hbare : store.Bare here) (hhere : here ≠ []) :
    (store.put here .directory).IsDirectory here ∧ (store.put here .directory).Bare here := by
  constructor
  · rw [IsDirectory, entry?_put hhere, if_pos rfl]
  · intro name rest
    rw [entry?_put hhere, if_neg (by simp)]
    exact hbare name rest

/-- Directories that are made in a bare place lead to a bare directory. -/
theorem makeAlong_bare (hhere : store.IsDirectory here) (hbare : store.Bare here)
    (hups : ".." ∉ parts) (hmake : store.makeAlong here parts = .ok prepared) :
    ∃ there, prepared.follow here parts = .ok there ∧ prepared.IsDirectory there ∧
      prepared.Bare there := by
  induction parts generalizing store here with
  | nil =>
    cases hmake
    exact ⟨here, rfl, hhere, hbare⟩
  | cons part rest ih =>
    obtain ⟨hup, hrest⟩ := List.ne_and_not_mem_of_not_mem_cons hups
    have hkept := (makeAlong_keeps hmake).2 here hhere
    rcases makeAlong_cons_cases hmake with
      ⟨hstay, hmake⟩ | ⟨rfl, -⟩ | ⟨-, -, hthere, -⟩ | ⟨hplain, hname, -, hmake⟩
    · rw [follow_cons_of_isDirectory hkept, if_pos hstay]
      exact ih hhere hbare hrest hmake
    · exact absurd rfl hup
    · rw [IsDirectory, hbare part []] at hthere
      cases hthere
    · obtain ⟨hnew, hempty⟩ := (hbare.below part).put_directory (by simp)
      obtain ⟨there, hfollow, hthere⟩ := ih hnew hempty hrest hmake
      exact ⟨there, (follow_plain_eq_ok_iff hplain).mpr ⟨hkept, hname, hfollow⟩, hthere⟩

/-- Making directories finds them all in place, or makes one that is empty where no path led before. -/
theorem makeAlong_cases (htree : store.IsTree) (hhere : store.IsDirectory here) (hups : ".." ∉ parts)
    (hmake : store.makeAlong here parts = .ok prepared) :
    (∃ there, store.follow here parts = .ok there ∧ store.IsDirectory there) ∨
      (∃ there, prepared.follow here parts = .ok there ∧ prepared.IsDirectory there ∧
        prepared.Bare there ∧ ∀ name, store.follow here (parts ++ [name]) = .error .missing) := by
  induction parts generalizing here with
  | nil => exact .inl ⟨here, rfl, hhere⟩
  | cons part rest ih =>
    obtain ⟨hup, hrest⟩ := List.ne_and_not_mem_of_not_mem_cons hups
    have hkept := (makeAlong_keeps hmake).2 here hhere
    simp only [List.cons_append, follow_cons_of_isDirectory hhere, follow_cons_of_isDirectory hkept]
    rcases makeAlong_cons_cases hmake with
      ⟨hstay, hmake⟩ | ⟨rfl, -⟩ | ⟨hplain, hname, hthere, hmake⟩ | ⟨hplain, hname, hnone, hmake⟩
    · simp only [if_pos hstay]
      exact ih hhere hrest hmake
    · exact absurd rfl hup
    · simp only [if_neg (not_or.mpr ⟨hplain.ne_empty, hplain.ne_dot⟩), if_neg hplain.ne_dots, if_pos hname]
      exact ih hthere hrest hmake
    · simp only [if_neg (not_or.mpr ⟨hplain.ne_empty, hplain.ne_dot⟩), if_neg hplain.ne_dots, if_pos hname]
      have hmissing : ¬store.IsDirectory (here ++ [part]) := by
        rw [IsDirectory, hnone]
        simp
      obtain ⟨hnew, hempty⟩ := (htree.bare hmissing).put_directory (by simp)
      obtain ⟨there, hfollow, hthere, hbare⟩ := makeAlong_bare hnew hempty hrest hmake
      refine .inr ⟨there, hfollow, hthere, hbare, fun name => ?_⟩
      cases rest with
      | nil => rw [List.nil_append, follow, hnone]
      | cons next rest => rw [List.cons_append, follow, hnone]

/-- Paths start from a directory. -/
theorem IsTree.origin (htree : store.IsTree) (path : String) : store.IsDirectory (store.origin path) := by
  unfold Store.origin
  split_ifs
  · exact store.isDirectory_root
  · exact htree.working

/-- Making a directory finds it in place, or makes an empty one where no path led before. -/
theorem makeDirectory_cases (htree : store.IsTree) (hups : ".." ∉ Path.parts path)
    (hmake : store.makeDirectory path = .ok prepared) :
    (∃ there, store.descend path = .ok there ∧ store.IsDirectory there) ∨
      (∃ there, prepared.descend path = .ok there ∧ prepared.IsDirectory there ∧
        prepared.Bare there ∧
        ∀ name, (store.descend path >>= fun here => store.follow here [name]) = .error .missing) := by
  rw [makeDirectory] at hmake
  split_ifs at hmake with hempty
  · -- The empty path stays where it is.
    rw [String.isEmpty_iff] at hempty
    subst hempty
    refine .inl ⟨store.origin "", ?_, htree.origin ""⟩
    exact (follow_cons_of_isDirectory (htree.origin "")).trans (if_pos (.inl rfl))
  · have horigin : prepared.origin path = store.origin path := by
      rw [Store.origin, Store.origin, (makeAlong_keeps hmake).1]
    rw [descend, descend, horigin]
    simp only [← follow_append]
    exact makeAlong_cases htree (htree.origin path) hups hmake

end PrivateFootage.Store
