import Mathlib
import PrivateFootage.Config
import PrivateFootage.Proofs.Json.Reading
import PrivateFootage.Proofs.Store.Write

/-!
# A saved configuration is loaded as it was

Every section of a configuration is read back from its JSON value: texts of any characters, numbers of 32
bits, switches, and the catalog with its videos in their order. So a file holds one configuration only, and
loading a file gives the configuration that was saved to it, whatever stood in the store before.
-/

namespace PrivateFootage

namespace Catalog

/-- An entry whose name comes after all others is put at the end. -/
theorem insertEntry_of_lt {name : String} {entries : List (String × List UInt32)}
    (hlast : ∀ entry ∈ entries, entry.1 < name) (hours : List UInt32) :
    insertEntry name hours entries = entries ++ [(name, hours)] := by
  induction entries with
  | nil => rfl
  | cons first rest ih =>
    obtain ⟨hfirst, hrest⟩ := List.forall_mem_cons.mp hlast
    rw [insertEntry, if_neg (String.lt_asymm hfirst), if_pos hfirst, ih hrest, List.cons_append]

/-- Entries that come after those of a catalog, in order, are put behind them. -/
theorem entries_foldl_insert (videos : List (String × List UInt32)) (catalog : Catalog)
    (hsorted : (catalog.entries ++ videos).Pairwise fun a b => a.1 < b.1) :
    (videos.foldl (fun catalog video => catalog.insert video.1 video.2) catalog).entries =
      catalog.entries ++ videos := by
  induction videos generalizing catalog with
  | nil => exact (List.append_nil _).symm
  | cons video videos ih =>
    have hlast : ∀ entry ∈ catalog.entries, entry.1 < video.1 := fun entry hentry =>
      (List.pairwise_append.mp hsorted).2.2 entry hentry video List.mem_cons_self
    have hinsert : (catalog.insert video.1 video.2).entries = catalog.entries ++ [video] :=
      insertEntry_of_lt hlast video.2
    have happend : (catalog.insert video.1 video.2).entries ++ videos = catalog.entries ++ video :: videos := by
      rw [hinsert, List.append_assoc, List.singleton_append]
    rw [List.foldl_cons, ih _ (happend ▸ hsorted), happend]

/-- A catalog is known by its entries. -/
theorem eq_of_entries_eq {first second : Catalog} (hentries : first.entries = second.entries) :
    first = second := by
  cases first
  cases second
  cases hentries
  rfl

/-- A catalog is made again from its entries. -/
theorem ofList_entries (catalog : Catalog) : ofList catalog.entries = catalog :=
  eq_of_entries_eq (entries_foldl_insert catalog.entries empty catalog.sorted)

end Catalog

namespace Config

variable {config : Config} {store stored : Store} {path : String}

/-! ### Sections -/

/-- A 32-bit number is read back. -/
theorem word?_ofCount (word : UInt32) : word? (Json.ofCount word.toNat) = some word := by
  rw [word?, Json.count?_ofCount word.toNat_lt, Option.map_some, UInt32.ofNat_toNat]

/-- The execution section is read back. -/
theorem execution?_executionMembers (execution : Execution) :
    execution? (Json.ofMembers (executionMembers execution)) = some execution := by
  have hfields := Json.fields?_ofMembers (executionMembers execution) (by simp [executionMembers])
  simp only [executionMembers, List.map_cons, List.map_nil] at hfields
  rw [execution?, executionMembers, hfields]
  rfl

/-- The logging section is read back. -/
theorem logging?_loggingMembers (logging : Logging) :
    logging? (Json.ofMembers (loggingMembers logging)) = some logging := by
  have hfields := Json.fields?_ofMembers (loggingMembers logging) (by simp [loggingMembers])
  simp only [loggingMembers, List.map_cons, List.map_nil] at hfields
  rw [logging?, loggingMembers, hfields]
  dsimp only [Option.bind_eq_bind, Option.bind_some, Json.required?]
  rw [Json.text?_ofText]
  rfl

/-- The catalog is read back with its videos in their order. -/
theorem videos?_videosJson (videos : Catalog) : videos? (videosJson videos) = some videos := by
  have hhours : ∀ hours : List UInt32, (hoursJson hours).list? word? = some hours := fun hours =>
    Json.list?_map fun hour _ => word?_ofCount hour
  have hentries : (videos.entries.map fun entry => (entry.1, hoursJson entry.2)).mapM
      (fun member => (member.2.list? word?).map fun hours => (member.1, hours)) =
        some (videos.entries.map id) := by
    refine Json.mapM_map_eq_some fun entry _ => ?_
    rw [hhours]
    rfl
  rw [videos?, videosJson, Json.members?_ofMembers, Option.bind_eq_bind, Option.bind_some]
  change (List.mapM (fun member : String × Json =>
    (member.2.list? word?).map fun hours => (member.1, hours)) _).bind _ = _
  rw [hentries, List.map_id, Option.bind_some, Catalog.ofList_entries]

/-! ### Files -/

/-- A configuration is read back from its JSON value. -/
theorem ofJson?_toJson (config : Config) : ofJson? config.toJson = some config := by
  have hfields := Json.fields?_ofMembers config.members (by simp [members])
  rw [ofJson?, toJson]
  simp only [members, List.map_cons, List.map_nil] at hfields ⊢
  rw [hfields]
  dsimp only [Option.bind_eq_bind, Option.bind_some, Json.defaulting?, Json.required?]
  rw [Json.text?_ofText, word?_ofCount, word?_ofCount, videos?_videosJson,
    execution?_executionMembers, logging?_loggingMembers]
  rfl

/-- The JSON value of a configuration is well-formed. -/
theorem wellFormed_toJson (config : Config) : config.toJson.WellFormed := by
  have hhours : ∀ hours : List UInt32, (hoursJson hours).WellFormed := by
    intro hours
    apply Json.WellFormed.array
    intro item hitem
    obtain ⟨hour, -, rfl⟩ := List.mem_map.mp hitem
    exact Json.wellFormed_ofCount _
  apply Json.wellFormed_ofMembers
  intro member hmember
  simp only [members, List.mem_cons, List.not_mem_nil, or_false] at hmember
  rcases hmember with rfl | rfl | rfl | rfl | rfl | rfl
  · exact Json.wellFormed_ofText _
  · exact Json.wellFormed_ofCount _
  · exact Json.wellFormed_ofCount _
  · apply Json.wellFormed_ofMembers
    intro member hmember
    obtain ⟨entry, -, rfl⟩ := List.mem_map.mp hmember
    exact hhours entry.2
  · exact Json.wellFormed_ofMembers (by simp [executionMembers, Json.WellFormed.bool])
  · exact Json.wellFormed_ofMembers (by simp [loggingMembers, Json.WellFormed.bool, Json.wellFormed_ofText])

/-- A configuration is read back from the text of its file. -/
theorem ofJson?_text (config : Config) : (Json.parse? config.text).bind ofJson? = some config := by
  rw [text, config.wellFormed_toJson.parse?_render, Option.bind_some, ofJson?_toJson]

/-- Saving makes the directories on the way to the file and writes the text. -/
theorem saveTo_eq_ok_iff :
    config.saveTo store path = .ok stored ↔
      ∃ prepared, store.makeDirectory (Path.parent path) = .ok prepared ∧
        prepared.write path config.text.toUTF8 = .ok stored := by
  rw [saveTo, Outcome.bind_eq_ok]
  simp only [Outcome.mapError_eq_ok]

/-- A file with the text of a configuration is loaded as that configuration. -/
theorem loadFrom_of_text (hread : store.readText path = .ok config.text) :
    loadFrom store path = .ok config := by
  rw [loadFrom, hread]
  dsimp only [Except.mapError, bind, Except.bind]
  rw [ofJson?_text]

/-- A saved configuration is loaded as it was. -/
theorem loadFrom_of_saveTo (config : Config) (store stored : Store) (path : String)
    (hsave : config.saveTo store path = .ok stored) : loadFrom stored path = .ok config := by
  obtain ⟨prepared, -, hwrite⟩ := saveTo_eq_ok_iff.mp hsave
  exact loadFrom_of_text (Store.readText_of_write hwrite)

/-- A configuration with unusual texts, an empty list of hours and the largest rate. -/
def unusual : Config where
  dataRoot := "/data \"é\"\\\n\t\x01😀"
  nativeRate := 4294967295
  analysisRate := 0
  videos := Catalog.ofList [("b", [3, 3]), ("", []), ("a\"", [4294967295])]
  execution := ⟨true, false⟩
  logging := ⟨"", true⟩

/-- A configuration with unusual texts is saved below a new directory and loaded as it was. -/
theorem loadFrom_of_saveTo_unusual :
    ∃ stored, unusual.saveTo Store.empty "nested/config.json" = .ok stored ∧
      loadFrom stored "nested/config.json" = .ok unusual := by
  have hmake : Store.empty.makeDirectory (Path.parent "nested/config.json") =
      .ok (Store.empty.put ["nested"] .directory) := rfl
  have hlocate : (Store.empty.put ["nested"] .directory).locate "nested/config.json" =
      .ok ["nested", "config.json"] := rfl
  have hfree : Store.entry? (Store.empty.put ["nested"] .directory) ["nested", "config.json"] = none := rfl
  have hwrite := Store.write_eq_ok_iff.mpr
    ⟨_, hlocate, by simp [Store.IsDirectory, hfree], Eq.refl (Store.put _ _ (.file unusual.text.toUTF8))⟩
  have hsave := saveTo_eq_ok_iff.mpr ⟨_, hmake, hwrite⟩
  exact ⟨_, hsave, loadFrom_of_saveTo _ _ _ _ hsave⟩

end Config

end PrivateFootage
