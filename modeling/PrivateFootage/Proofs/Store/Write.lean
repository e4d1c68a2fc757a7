import Mathlib
import PrivateFootage.Proofs.Outcome
import PrivateFootage.Proofs.Store.Follow

/-!
# Reading what was written

A file is put at the place that its path leads to. Directories stay directories, so the path still
leads there and reading gives what was written. Every other place keeps its entry.
-/

namespace PrivateFootage

/-- A text is read back from its bytes. -/
@[simp] theorem fromUTF8?_toUTF8 (text : String) : String.fromUTF8? text.toUTF8 = some text := by
  unfold String.fromUTF8?
  rw [String.toUTF8_eq_toByteArray, dif_pos text.isValidUTF8]
  rfl

namespace Store

variable {store after : Store} {path : String} {content : ByteArray}

/-- The root is a directory. -/
theorem isDirectory_root (store : Store) : store.IsDirectory [] := rfl

/-- Taking the entries of one place away leaves those of any other. -/
theorem lookup_filter_ne {place other : List String} (hother : other ≠ place)
    (entries : List (List String × Entry)) :
    (entries.filter fun entry => entry.1 ≠ place).lookup other = entries.lookup other := by
  induction entries with
  | nil => rfl
  | cons entry entries ih =>
    by_cases hentry : entry.1 = place
    · have hdiffers : (other == entry.1) = false := by simpa [hentry] using hother
      rw [List.filter_cons_of_neg (by simpa using hentry), ih, List.lookup_cons, hdiffers]
    · rw [List.filter_cons_of_pos (by simpa using hentry), List.lookup_cons, List.lookup_cons, ih]

/-- What stands at a place after an entry was put somewhere. -/
theorem entry?_put {place : List String} (hplace : place ≠ []) (entry : Entry) (other : List String) :
    Store.entry? (store.put place entry) other =
      if other = place then some entry else store.entry? other := by
  by_cases hsame : other = place
  · rw [if_pos hsame, hsame, entry?, if_neg (by simpa using hplace)]
    exact List.lookup_cons_self
  · have hkept : (store.put place entry).entries.lookup other = store.entries.lookup other := by
      have hdiffers : (other == place) = false := by simpa using hsame
      rw [put, List.lookup_cons, hdiffers]
      exact lookup_filter_ne hsame store.entries
    rw [if_neg hsame, entry?, entry?, hkept]

/-- Which files are read. -/
theorem read_eq_ok_iff :
    store.read path = .ok content ↔
      ∃ place, store.locate path = .ok place ∧ store.entry? place = some (.file content) := by
  rw [read, Outcome.bind_eq_ok]
  refine exists_congr fun place => and_congr_right fun _ => ?_
  cases store.entry? place with
  | none => simp
  | some entry => cases entry <;> simp

/-- What reading a path gives depends on its place and on the entry there only. -/
theorem read_congr
    (hplace : after.locate path = store.locate path)
    (hentry : ∀ place, store.locate path = .ok place → after.entry? place = store.entry? place) :
    after.read path = store.read path := by
  rw [read, read, hplace]
  cases hlocate : store.locate path with
  | error fault => rfl
  | ok place =>
    dsimp only [bind, Except.bind]
    rw [hentry place hlocate]

/-- Which files can be written, and how. -/
theorem write_eq_ok_iff :
    store.write path content = .ok after ↔
      ∃ place, store.locate path = .ok place ∧ ¬store.IsDirectory place ∧
        after = store.put place (.file content) := by
  rw [write, Outcome.bind_eq_ok]
  refine exists_congr fun place => and_congr_right fun _ => ?_
  unfold IsDirectory
  cases store.entry? place with
  | none => simp [eq_comm]
  | some entry => cases entry <;> simp [eq_comm]

/-- Which texts are read. -/
theorem readText_eq_ok_iff {text : String} :
    store.readText path = .ok text ↔
      ∃ content, store.read path = .ok content ∧ String.fromUTF8? content = some text := by
  rw [readText, Outcome.bind_eq_ok]
  refine exists_congr fun content => and_congr_right fun _ => ?_
  cases String.fromUTF8? content <;> simp

/-- Putting a file where no directory stands keeps the directories. -/
theorem isDirectory_put_file {place other : List String} (hplace : ¬store.IsDirectory place)
    (hother : store.IsDirectory other) : (store.put place (.file content)).IsDirectory other := by
  have hroot : place ≠ [] := by
    rintro rfl
    exact hplace store.isDirectory_root
  have hdiffers : other ≠ place := by
    rintro rfl
    exact hplace hother
  rw [IsDirectory, entry?_put hroot, if_neg hdiffers]
  exact hother

/-- Reading a path gives what was written to it. -/
theorem read_of_write (hwrite : store.write path content = .ok after) :
    after.read path = .ok content := by
  obtain ⟨place, hplace, hfree, rfl⟩ := write_eq_ok_iff.mp hwrite
  have hroot : place ≠ [] := by
    rintro rfl
    exact hfree store.isDirectory_root
  refine read_eq_ok_iff.mpr ⟨place, ?_, ?_⟩
  · unfold locate at hplace ⊢
    split_ifs at hplace ⊢
    exact follow_of_isDirectory (fun other => isDirectory_put_file hfree) hplace
  · rw [entry?_put hroot, if_pos rfl]

/-- Reading a path gives the text that was written to it. -/
theorem readText_of_write {text : String} (hwrite : store.write path text.toUTF8 = .ok after) :
    after.readText path = .ok text :=
  readText_eq_ok_iff.mpr ⟨_, read_of_write hwrite, fromUTF8?_toUTF8 text⟩

end Store

end PrivateFootage
