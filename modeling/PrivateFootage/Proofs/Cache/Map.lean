import Mathlib
import PrivateFootage.Proofs.Cache.Files
import PrivateFootage.Proofs.ExactArithmetic
import PrivateFootage.Proofs.Store.Making

/-!
# Stored results are a map from keys to records

A key without slashes has its record in one file of the directory. Saving under a key writes that file
and no other, so every other key keeps its record. Over any run of loads, saves and computations, a key
therefore holds what was saved under it last, and before that what its first record says. A call that
cannot load or compute leaves every record as it was.

The directory may be missing at first. The first save makes it, empty, so the keys that had no record
still have none.
-/

namespace PrivateFootage.Cache

open Store (IsFolder)

variable {α : Type} [Scalar α] {cache : Cache} {store prepared stored : Store} {key other : String}
  {place : List String} {now : Instant} {results : List (ChunkResult α)}

/-! ### The file of a key -/

/-- The name of the file of a key. -/
def fileName (key : String) : String := key ++ ".json"

/-- Different keys have different files. -/
theorem fileName_injective : Function.Injective fileName := by
  intro first second hsame
  have hchars := congrArg String.toList hsame
  rw [fileName, fileName, String.toList_append, String.toList_append] at hchars
  exact String.toList_injective (List.append_cancel_right hchars)

/-- A key without slashes names one file of the directory. -/
theorem isFolder_fileName (hkey : '/' ∉ key.toList) : IsFolder (fileName key) := by
  have hne : ∀ text : String, 'j' ∉ text.toList → fileName key ≠ text := by
    rintro text hnone rfl
    rw [fileName, String.toList_append] at hnone
    exact hnone (List.mem_append_right _ (by decide))
  refine ⟨⟨hne _ (by decide), hne _ (by decide), hne _ (by decide)⟩, ?_⟩
  rw [fileName, String.toList_append, List.mem_append, not_or]
  exact ⟨hkey, by decide⟩

/-- The path of a key leads to the directory and on to the file. -/
theorem locate_path (hkey : '/' ∉ key.toList) :
    store.locate (cache.path key) =
      store.descend cache.directory >>= fun here => store.follow here [fileName key] := by
  have hfile := isFolder_fileName hkey
  rw [path, ← fileName, Store.locate_eq_descend (Path.join_ne_empty hfile.ne_empty _),
    Store.descend_join (Path.isAbsolute_of_notMem hfile.no_slash), Path.parts_of_notMem hfile.no_slash]

/-- What a load gives depends on the file of the key only. -/
theorem load_congr (hread : stored.read (cache.path key) = store.read (cache.path key)) :
    (cache.load stored key : Outcome (Option (List (ChunkResult α)))) = cache.load store key := by
  delta load Store.readText
  dsimp only
  rw [hread]

/-! ### A directory that is there -/

/-- The directory of the records is there, at a place. -/
structure ReadyAt (cache : Cache) (store : Store) (place : List String) : Prop where
  descend_eq : store.descend cache.directory = .ok place
  isDirectory : store.IsDirectory place

/-- The place of a file in the directory. -/
theorem ReadyAt.locate_path (hready : cache.ReadyAt store place) (hkey : '/' ∉ key.toList) :
    store.locate (cache.path key) =
      if Store.isName (fileName key) then .ok (place ++ [fileName key]) else .error .badName := by
  have hplain := (isFolder_fileName hkey).toIsPlain
  rw [Cache.locate_path hkey, hready.descend_eq]
  change store.follow place [fileName key] = _
  rw [Store.follow_cons_of_isDirectory hready.isDirectory,
    if_neg (not_or.mpr ⟨hplain.ne_empty, hplain.ne_dot⟩), if_neg hplain.ne_dots]
  rfl

/-- A key keeps its record as long as the entry of its file stays. -/
theorem ReadyAt.load_eq (hbefore : cache.ReadyAt store place) (hafter : cache.ReadyAt stored place)
    (hkey : '/' ∉ key.toList)
    (hentry : stored.entry? (place ++ [fileName key]) = store.entry? (place ++ [fileName key])) :
    (cache.load stored key : Outcome (Option (List (ChunkResult α)))) = cache.load store key := by
  have hplace := hbefore.locate_path hkey
  refine load_congr (Store.read_congr ((hafter.locate_path hkey).trans hplace.symm) ?_)
  intro found hfound
  rw [hplace] at hfound
  split_ifs at hfound
  cases hfound
  exact hentry

/-- A file without an entry holds no results. -/
theorem ReadyAt.load_eq_none (hready : cache.ReadyAt store place) (hkey : '/' ∉ key.toList)
    (hname : Store.isName (fileName key) = true) (hnone : store.entry? (place ++ [fileName key]) = none) :
    cache.load store key = .ok (none : Option (List (ChunkResult α))) := by
  apply load_of_missing
  rw [Store.readText, Store.read, hready.locate_path hkey, if_pos hname]
  dsimp only [bind, Except.bind]
  rw [hnone]

/-- Saving under a key puts its file into the directory. -/
theorem ReadyAt.save_eq_ok (hready : cache.ReadyAt store place) (hkey : '/' ∉ key.toList)
    (hsave : cache.save now store key results = (.ok (), stored)) :
    ¬store.IsDirectory (place ++ [fileName key]) ∧
      ∃ content, stored = store.put (place ++ [fileName key]) (.file content) := by
  obtain ⟨prepared, hmake, hwrite⟩ := save_eq_ok_iff.mp hsave
  rw [Store.makeDirectory_of_isDirectory hready.descend_eq hready.isDirectory] at hmake
  cases hmake
  obtain ⟨found, hfound, hfree, hstored⟩ := Store.write_eq_ok_iff.mp hwrite
  rw [hready.locate_path hkey] at hfound
  split_ifs at hfound
  cases hfound
  exact ⟨hfree, _, hstored⟩

/-- Saving under a key keeps the directory and the records of all other keys. -/
theorem ReadyAt.of_save (hready : cache.ReadyAt store place) (hkey : '/' ∉ key.toList)
    (hsave : cache.save now store key results = (.ok (), stored)) :
    cache.ReadyAt stored place ∧ ∀ other, other ≠ key → '/' ∉ other.toList →
      (cache.load stored other : Outcome (Option (List (ChunkResult α)))) = cache.load store other := by
  obtain ⟨hfree, content, rfl⟩ := hready.save_eq_ok hkey hsave
  have hdirectories : ∀ directory, store.IsDirectory directory →
      (store.put (place ++ [fileName key]) (.file content)).IsDirectory directory :=
    fun _ => Store.isDirectory_put_file hfree
  have hkept : cache.ReadyAt (store.put (place ++ [fileName key]) (.file content)) place :=
    ⟨Store.descend_of_isDirectory (by rfl) hdirectories hready.descend_eq,
      hdirectories place hready.isDirectory⟩
  refine ⟨hkept, fun other hother hslash => hready.load_eq hkept hslash ?_⟩
  rw [Store.entry?_put (by simp), if_neg]
  rw [List.append_cancel_left_eq, List.singleton_inj]
  exact fileName_injective.ne hother

/-! ### A directory that may be missing -/

/-- The directory of the records is there. -/
def Ready (cache : Cache) (store : Store) : Prop :=
  ∃ place, cache.ReadyAt store place

/-- The directory is there, or it can be made by a path that does not go up. -/
def Usable (cache : Cache) (store : Store) : Prop :=
  cache.Ready store ∨ store.IsTree ∧ ".." ∉ Path.parts cache.directory

/-- A key without slashes, which can name a file if the directory is still to be made. -/
structure Admits (cache : Cache) (store : Store) (key : String) : Prop where
  no_slash : '/' ∉ key.toList
  name : cache.Ready store ∨ Store.isName (fileName key) = true

/-- Making the directory gives one in which no key has more than it had before. -/
theorem Usable.of_makeDirectory (husable : cache.Usable store)
    (hmake : store.makeDirectory cache.directory = .ok prepared) :
    cache.Ready prepared ∧ ∀ key, cache.Admits store key →
      (cache.load prepared key : Outcome (Option (List (ChunkResult α)))) = cache.load store key := by
  have hthere : cache.Ready store → cache.Ready prepared ∧ ∀ key, cache.Admits store key →
      (cache.load prepared key : Outcome (Option (List (ChunkResult α)))) = cache.load store key := by
    rintro ⟨place, hready⟩
    rw [Store.makeDirectory_of_isDirectory hready.descend_eq hready.isDirectory] at hmake
    cases hmake
    exact ⟨⟨place, hready⟩, fun _ _ => rfl⟩
  rcases husable with hready | ⟨htree, hups⟩
  · exact hthere hready
  rcases Store.makeDirectory_cases htree hups hmake with
    ⟨place, hplace⟩ | ⟨place, hdescend, hdirectory, hbare, hmissing⟩
  · exact hthere ⟨place, hplace.1, hplace.2⟩
  have hready : cache.ReadyAt prepared place := ⟨hdescend, hdirectory⟩
  refine ⟨⟨place, hready⟩, fun key hkey => ?_⟩
  -- No path led to the file of the key before, and the new directory is empty.
  have hnone : store.locate (cache.path key) = .error .missing :=
    (Cache.locate_path hkey.no_slash).trans (hmissing (fileName key))
  have hname : Store.isName (fileName key) = true := by
    refine hkey.name.resolve_left ?_
    rintro ⟨before, hbefore⟩
    rw [hbefore.locate_path hkey.no_slash] at hnone
    split_ifs at hnone
    cases hnone
  rw [hready.load_eq_none hkey.no_slash hname (hbare _ []), load_of_missing]
  rw [Store.readText, Store.read, hnone]
  rfl

/-- Saving under a key leaves the directory in place and keeps the records of all other keys. -/
theorem Usable.of_save (husable : cache.Usable store) (hkey : '/' ∉ key.toList)
    (hsave : cache.save now store key results = (.ok (), stored)) :
    cache.Ready stored ∧ ∀ other, other ≠ key → cache.Admits store other →
      (cache.load stored other : Outcome (Option (List (ChunkResult α)))) = cache.load store other := by
  obtain ⟨prepared, hmake, hwrite⟩ := save_eq_ok_iff.mp hsave
  obtain ⟨⟨place, hready⟩, hsame⟩ := husable.of_makeDirectory (α := α) hmake
  -- The save may as well start from the store with the directory.
  have hagain : cache.save now prepared key results = (.ok (), stored) :=
    save_eq_ok_iff.mpr
      ⟨prepared, Store.makeDirectory_of_isDirectory hready.descend_eq hready.isDirectory, hwrite⟩
  obtain ⟨hstored, hothers⟩ := hready.of_save hkey hagain
  exact ⟨⟨place, hstored⟩, fun other hother hadmits =>
    (hothers other hother hadmits.no_slash).trans (hsame other hadmits)⟩

/-! ### Runs of calls -/

/-- What is asked of a directory of results. -/
inductive Operation (α : Type) where
  | load
  | save (results : List (ChunkResult α))
  | getOrCompute (compute : Unit → Outcome (List (ChunkResult α)))

/-- An operation on a key, at a time. -/
structure Call (α : Type) where
  key : String
  now : Instant
  operation : Operation α

/-- What a call gives. -/
inductive Answer (α : Type) where
  | loaded (outcome : Outcome (Option (List (ChunkResult α))))
  | saved (outcome : Outcome Unit)
  | obtained (outcome : Outcome (List (ChunkResult α)))

/-- What a call gives, with the store that it leaves. -/
def perform (cache : Cache) (store : Store) (call : Call α) : Answer α × Store :=
  match call.operation with
  | .load => (.loaded (cache.load store call.key), store)
  | .save results => (cache.save call.now store call.key results).map .saved id
  | .getOrCompute compute => (cache.getOrCompute call.now store call.key compute).map .obtained id

/-- The store that a run of calls leaves. -/
def after (cache : Cache) (store : Store) (calls : List (Call α)) : Store :=
  calls.foldl (fun store call => (cache.perform store call).2) store

/-- The results that a call stores under its key: those to save, or those it computes where none were
stored. -/
def puts? (cache : Cache) (store : Store) (call : Call α) : Option (List (ChunkResult α)) :=
  match call.operation with
  | .load => none
  | .save results => some results
  | .getOrCompute compute =>
    match (cache.load store call.key : Outcome (Option (List (ChunkResult α)))), compute () with
    | .ok none, .ok results => some results
    | _, _ => none

/-- The results that a run of calls stores under a key last, if it stores any. -/
def lastPut? (cache : Cache) (key : String) : Store → List (Call α) → Option (List (ChunkResult α))
  | _, [] => none
  | store, call :: rest =>
    (cache.lastPut? key (cache.perform store call).2 rest).or
      (if call.key = key then cache.puts? store call else none)

/-- A call on an admitted key whose results, if it stores any, can be written and are written. -/
structure Works (cache : Cache) (store : Store) (call : Call α) : Prop where
  admits : cache.Admits store call.key
  now_valid : call.now.Valid
  storable : ∀ results, cache.puts? store call = some results → ∀ result ∈ results, result.Storable
  saved : ∀ results, cache.puts? store call = some results →
    (cache.save call.now store call.key results).1 = .ok ()

/-- Every call of a run works in the store that the calls before it leave. -/
def RunWorks (cache : Cache) : Store → List (Call α) → Prop
  | _, [] => True
  | store, call :: rest => cache.Works store call ∧ cache.RunWorks (cache.perform store call).2 rest

variable {call : Call α} {calls : List (Call α)}

/-- Results that a call stores are saved. -/
theorem Works.save_eq (hworks : cache.Works store call) (hputs : cache.puts? store call = some results) :
    cache.save call.now store call.key results =
      (.ok (), (cache.save call.now store call.key results).2) :=
  Prod.ext (hworks.saved results hputs) rfl

/-- A call leaves the store as it is, or it saves results under its key. -/
theorem Works.perform_cases (hworks : cache.Works store call) :
    (cache.puts? store call = none ∧ (cache.perform store call).2 = store) ∨
      ∃ results, cache.puts? store call = some results ∧
        cache.save call.now store call.key results = (.ok (), (cache.perform store call).2) := by
  obtain ⟨key, now, operation⟩ := call
  cases operation with
  | load => exact .inl ⟨rfl, rfl⟩
  | save results => exact .inr ⟨results, rfl, hworks.save_eq rfl⟩
  | getOrCompute compute =>
    cases hload : (cache.load store key : Outcome (Option (List (ChunkResult α)))) with
    | error error =>
      refine .inl ⟨?_, ?_⟩
      · simp only [puts?, hload]
      · simp only [perform, getOrCompute_of_unreadable hload, Prod.map, id]
    | ok found =>
      cases found with
      | some found =>
        refine .inl ⟨?_, ?_⟩
        · simp only [puts?, hload]
        · simp only [perform, getOrCompute_of_stored hload, Prod.map, id]
      | none =>
        cases hcompute : compute () with
        | error error =>
          refine .inl ⟨?_, ?_⟩
          · simp only [puts?, hload, hcompute]
          · simp only [perform, getOrCompute_of_error hload hcompute, Prod.map, id]
        | ok results =>
          have hputs : cache.puts? store ⟨key, now, .getOrCompute compute⟩ = some results := by
            simp only [puts?, hload, hcompute]
          have hsave := hworks.save_eq hputs
          refine .inr ⟨results, hputs, ?_⟩
          simp only [perform, getOrCompute_of_computed hload hcompute hsave, Prod.map, id]
          exact hsave

/-- What a call leaves: a directory that is still usable, its key with the results that it stored, if
it stored any, and every other key as it was. -/
theorem Works.step (hworks : cache.Works store call) (husable : cache.Usable store) :
    cache.Usable (cache.perform store call).2 ∧
      (∀ key, cache.Admits store key → cache.Admits (cache.perform store call).2 key) ∧
      ∀ key, cache.Admits store key → cache.load (cache.perform store call).2 key =
        ((if call.key = key then cache.puts? store call else none).map fun results =>
          .ok (some results)).getD (cache.load store key) := by
  rcases hworks.perform_cases with ⟨hnone, hsame⟩ | ⟨results, hputs, hsave⟩
  · simp only [hsame, hnone, ite_self]
    exact ⟨husable, fun _ => id, fun _ _ => rfl⟩
  · obtain ⟨hready, hothers⟩ := husable.of_save hworks.admits.no_slash hsave
    refine ⟨.inl hready, fun key hkey => ⟨hkey.no_slash, .inl hready⟩, fun key hkey => ?_⟩
    split_ifs with hsame
    · subst hsame
      rw [hputs]
      exact load_of_save (hworks.storable results hputs) hworks.now_valid hsave
    · exact hothers key (Ne.symm hsame) hkey

/-- Along a run of calls that work, a key holds the results that were stored under it last, and until
then what its first record says. -/
theorem RunWorks.load_after (hworks : cache.RunWorks store calls) (husable : cache.Usable store)
    (hkey : cache.Admits store key) :
    cache.load (cache.after store calls) key =
      ((cache.lastPut? key store calls).map fun results => .ok (some results)).getD
        (cache.load store key) := by
  induction calls generalizing store with
  | nil => rfl
  | cons call rest ih =>
    obtain ⟨hfirst, hrest⟩ := hworks
    obtain ⟨hnext, hadmits, hload⟩ := hfirst.step husable
    have hlater := ih hrest hnext (hadmits key hkey)
    rw [hload key hkey] at hlater
    rw [lastPut?]
    refine hlater.trans ?_
    cases cache.lastPut? key (cache.perform store call).2 rest with
    | none => rfl
    | some results => rfl

/-- Each call of a run finds a usable directory, in which it works. -/
theorem RunWorks.at_call {before rest : List (Call α)} (hworks : cache.RunWorks store (before ++ call :: rest))
    (husable : cache.Usable store) :
    cache.Usable (cache.after store before) ∧ cache.Works (cache.after store before) call := by
  induction before generalizing store with
  | nil => exact ⟨husable, hworks.1⟩
  | cons first before ih => exact ih hworks.2 (hworks.1.step husable).1

/-- A call answers and leaves the records as a map would. Results are computed if and only if none are
stored, which shows in that the outcome depends on the computation. -/
structure AsMap (cache : Cache) (store : Store) (call : Call α) : Prop where
  others : ∀ other, other ≠ call.key → cache.Admits store other →
    (cache.load (cache.perform store call).2 other : Outcome (Option (List (ChunkResult α)))) =
      cache.load store other
  saves : ∀ results, call.operation = .save results →
    (cache.perform store call).1 = .saved (.ok ())
  finds : ∀ compute results, call.operation = .getOrCompute compute →
    cache.load store call.key = .ok (some results) →
      cache.perform store call = (.obtained (.ok results), store)
  computes : ∀ compute, call.operation = .getOrCompute compute →
    cache.load store call.key = .ok (none : Option (List (ChunkResult α))) →
      (cache.perform store call).1 = .obtained (compute ())
  fails : ∀ compute error, call.operation = .getOrCompute compute →
    (cache.load store call.key : Outcome (Option (List (ChunkResult α)))) = .error error ∨
        cache.load store call.key = .ok (none : Option (List (ChunkResult α))) ∧
          compute () = .error error →
      cache.perform store call = (.obtained (.error error), store)
  consults : (∃ first second : Unit → Outcome (List (ChunkResult α)),
      cache.getOrCompute call.now store call.key first ≠
        cache.getOrCompute call.now store call.key second) ↔
    cache.load store call.key = .ok (none : Option (List (ChunkResult α)))

/-- The outcome depends on the computation if and only if no results are stored. -/
theorem getOrCompute_depends_iff :
    (∃ first second : Unit → Outcome (List (ChunkResult α)),
        cache.getOrCompute now store key first ≠ cache.getOrCompute now store key second) ↔
      cache.load store key = .ok (none : Option (List (ChunkResult α))) := by
  constructor
  · rintro ⟨first, second, hdiffer⟩
    cases hload : (cache.load store key : Outcome (Option (List (ChunkResult α)))) with
    | error error =>
      rw [getOrCompute_of_unreadable hload, getOrCompute_of_unreadable hload] at hdiffer
      exact absurd rfl hdiffer
    | ok found =>
      cases found with
      | none => rfl
      | some results =>
        rw [getOrCompute_of_stored hload, getOrCompute_of_stored hload] at hdiffer
        exact absurd rfl hdiffer
  · intro hload
    -- Two computations that fail for different reasons are told apart.
    refine ⟨fun _ => .error (.fileNotFound ""), fun _ => .error (.fileNotFound "/"), ?_⟩
    rw [getOrCompute_of_error hload rfl, getOrCompute_of_error hload rfl]
    intro hsame
    have herror : (Except.error (.fileNotFound "") : Outcome (List (ChunkResult α))) =
        .error (.fileNotFound "/") := congrArg Prod.fst hsame
    injection herror with herror
    injection herror with hpath
    exact absurd hpath (by decide)

/-- A call that works in a usable directory is one on a map. -/
theorem Works.asMap (hworks : cache.Works store call) (husable : cache.Usable store) :
    cache.AsMap store call where
  others other hother hadmits := by
    rw [(hworks.step husable).2.2 other hadmits, if_neg (Ne.symm hother)]
    rfl
  saves results hoperation := by
    have hputs : cache.puts? store call = some results := by rw [puts?, hoperation]
    rw [perform, hoperation]
    exact congrArg Answer.saved (hworks.saved results hputs)
  finds compute results hoperation hload := by
    rw [perform, hoperation]
    exact congrArg (Prod.map Answer.obtained id) (getOrCompute_of_stored hload)
  computes compute hoperation hload := by
    have hanswer : (cache.getOrCompute call.now store call.key compute).1 = compute () := by
      cases hcompute : compute () with
      | error error => rw [getOrCompute_of_error hload hcompute]
      | ok results =>
        have hputs : cache.puts? store call = some results := by
          simp only [puts?, hoperation, hload, hcompute]
        rw [getOrCompute_of_computed hload hcompute (hworks.save_eq hputs)]
    rw [perform, hoperation]
    exact congrArg Answer.obtained hanswer
  fails compute error hoperation hfails := by
    have hanswer : cache.getOrCompute call.now store call.key compute = (.error error, store) := by
      rcases hfails with hload | ⟨hload, hcompute⟩
      · exact getOrCompute_of_unreadable hload
      · exact getOrCompute_of_error hload hcompute
    rw [perform, hoperation]
    exact congrArg (Prod.map Answer.obtained id) hanswer
  consults := getOrCompute_depends_iff

/-- The directory is a map from keys to records over every run of calls that work, whatever its files hold
at first. A key holds the results that were stored under it last, and before that what its file says,
which is nothing if there is none. Each call changes no key but its own, computes results exactly when
none are stored, and changes nothing when it cannot load or compute. -/
theorem runs_as_map (husable : cache.Usable store) (hworks : cache.RunWorks store calls) :
    (∀ key, cache.Admits store key →
      cache.load (cache.after store calls) key =
        ((cache.lastPut? key store calls).map fun results => .ok (some results)).getD
          (cache.load store key)) ∧
    (∀ place key, cache.ReadyAt store place → '/' ∉ key.toList → Store.isName (fileName key) = true →
      store.entry? (place ++ [fileName key]) = none →
        cache.load store key = .ok (none : Option (List (ChunkResult α)))) ∧
    ∀ before call rest, calls = before ++ call :: rest →
      cache.AsMap (cache.after store before) call := by
  refine ⟨fun key => hworks.load_after husable, fun place key => ReadyAt.load_eq_none, ?_⟩
  rintro before call rest rfl
  obtain ⟨hreached, hcall⟩ := hworks.at_call husable
  exact hcall.asMap hreached

/-- A directory that holds nothing but a broken record. -/
def brokenRecord : Store where
  entries := [(["results"], .directory), (["results", "b.json"], .file "[".toUTF8)]

/-- Results are wanted under the broken key and then under a new one. -/
def twoCalls : List (Call ℚ) :=
  [⟨"b", ⟨0, 0⟩, .getOrCompute fun _ => .ok [.single (.plain 3)]⟩,
    ⟨"a", ⟨0, 0⟩, .getOrCompute fun _ => .ok [.single (.plain 3)]⟩]

/-- The broken record is reported and stays, and the new key holds what was computed. -/
theorem runs_as_map_broken_record :
    Usable ⟨"/results"⟩ brokenRecord ∧ RunWorks ⟨"/results"⟩ brokenRecord twoCalls ∧
    load ⟨"/results"⟩ (after ⟨"/results"⟩ brokenRecord twoCalls) "a" =
      .ok (some [.single (.plain (3 : ℚ))]) ∧
    (load ⟨"/results"⟩ (after ⟨"/results"⟩ brokenRecord twoCalls) "b" :
      Outcome (Option (List (ChunkResult ℚ)))) = .data (.corruptRecord "/results/b.json") := by
  have hready : Ready ⟨"/results"⟩ brokenRecord := ⟨["results"], rfl, rfl⟩
  have hbroken : (load ⟨"/results"⟩ brokenRecord "b" : Outcome (Option (List (ChunkResult ℚ)))) =
      .data (.corruptRecord "/results/b.json") := rfl
  have hvalid : Instant.Valid ⟨0, 0⟩ := by constructor <;> decide
  have hstorable : ∀ result ∈ [ChunkResult.single (.plain (3 : ℚ))], result.Storable := by
    simp only [List.mem_singleton, forall_eq, ChunkResult.Storable, ChunkValue.Storable, Json.RoundTrips]
    decide +kernel
  have hworks : RunWorks ⟨"/results"⟩ brokenRecord twoCalls := by
    refine ⟨⟨⟨by decide, .inl hready⟩, hvalid, ?_, ?_⟩, ⟨⟨by decide, .inl hready⟩, hvalid, ?_, ?_⟩, trivial⟩
    · intro results hputs
      simp only [puts?, hbroken, Outcome.data, reduceCtorEq] at hputs
    · intro results hputs
      simp only [puts?, hbroken, Outcome.data, reduceCtorEq] at hputs
    · intro results hputs
      cases hputs
      exact hstorable
    · intro results hputs
      cases hputs
      rfl
  obtain ⟨hloads, -⟩ := runs_as_map (.inl hready) hworks
  refine ⟨.inl hready, hworks, ?_, ?_⟩
  · exact hloads "a" ⟨by decide, .inl hready⟩
  · exact (hloads "b" ⟨by decide, .inl hready⟩).trans hbroken

end PrivateFootage.Cache
