import Mathlib
import PrivateFootage.Proofs.Outcome
import PrivateFootage.Window

/-!
# Series of regions

A window in regions is gathered region by region and combined chunk by chunk, so its values are
turned over twice. The series of the regions are the columns of the table whose rows are the chunks:
every chunk adds a row, bounds of a region act on its column, and what is combined at a chunk is a row
again. So each chunk contributes on its own, and shaping a window in regions fails exactly if a chunk
has other than the expected number of values or a bound is missing.
-/

namespace PrivateFootage

namespace Windowing

variable {α : Type} [Scalar α]

/-- Reading all positions of a row gives the row. -/
theorem map_getD_range {count : ℕ} {row : List α} (hrow : row.length = count) :
    ((List.range count).map fun split => row.getD split Scalar.undefined) = row := by
  apply List.ext_getElem
  · simp [hrow]
  · intro split _ hsplit
    simp [hsplit]

/-! ### Columns -/

/-- What the rows of a table have at one position. -/
def column (rows : List (List α)) (split : ℕ) : Array α :=
  (rows.map fun row => row.getD split Scalar.undefined).toArray

/-- The columns of a table with a number of values in each row. -/
def columns (count : ℕ) (rows : List (List α)) : List (Array α) :=
  (List.range count).map (column rows)

/-- A table without rows has empty columns. -/
theorem columns_nil (count : ℕ) : columns count ([] : List (List α)) = List.replicate count #[] := by
  simp [columns, column, List.eq_replicate_iff]

/-- A row is added by adding its values to the columns. -/
theorem zipWith_push_columns {count : ℕ} (rows : List (List α)) {row : List α}
    (hrow : row.length = count) :
    List.zipWith Array.push (columns count rows) row = columns count (rows ++ [row]) := by
  nth_rewrite 1 [← map_getD_range hrow]
  simp [columns, column, List.zipWith_map]

/-- Rows added one after another make up the columns of the table. -/
theorem foldl_push_columns {count : ℕ} (rows : List (List α)) {added : List (List α)}
    (hadded : ∀ row ∈ added, row.length = count) :
    added.foldl (List.zipWith Array.push) (columns count rows) = columns count (rows ++ added) := by
  induction added generalizing rows with
  | nil => simp
  | cons row added ih =>
    rw [List.foldl_cons, zipWith_push_columns rows (hadded row List.mem_cons_self),
      ih (rows ++ [row]) fun other hother => hadded other (List.mem_cons_of_mem _ hother),
      List.append_assoc, List.singleton_append]

/-- What the columns have at the position of a row is that row. -/
theorem map_getD_columns {count : ℕ} {rows : List (List α)} {chunk : ℕ} (hchunk : chunk < rows.length)
    (hrow : rows[chunk].length = count) :
    ((columns count rows).map fun values => values.getD chunk Scalar.undefined) = rows[chunk] := by
  rw [← map_getD_range hrow]
  simp [columns, column, Array.getD, hchunk]

/-! ### Bounds on columns -/

/-- Bring the values of the regions of a chunk into their own bounds. -/
def clipEach (bounds : List (α × α)) (values : List α) : List α :=
  List.zipWith (fun bound value => Scalar.clip bound.1 bound.2 value) bounds values

/-- Bounds on columns are bounds on the values of every row. -/
theorem zipWith_clip_columns {count : ℕ} {bounds : List (α × α)} (hbounds : bounds.length = count)
    {rows : List (List α)} (hrows : ∀ row ∈ rows, row.length = count) :
    List.zipWith (fun split bound => (column rows split).map (Scalar.clip bound.1 bound.2))
        (List.range count) bounds =
      columns count (rows.map (clipEach bounds)) := by
  apply List.ext_getElem
  · simp [columns, hbounds]
  · intro split hleft _
    have hsplit : split < count := by simpa [hbounds] using hleft
    simp only [List.getElem_zipWith, List.getElem_range, columns, List.getElem_map, column,
      List.map_toArray, List.map_map]
    congr 1
    apply List.map_congr_left
    intro row hrow
    have hin : split < row.length := by rw [hrows row hrow]; exact hsplit
    simp [clipEach, hin, hbounds, hsplit]

/-! ### Windows in regions -/

variable {count : ℕ} {window : List (ChunkResult α)}

omit [Scalar α] in
/-- Values are taken from chunks in regions that have as many as expected, and from no others. -/
theorem splitValues_eq_ok_iff {result : ChunkResult α} {values : List (ChunkValue α)} :
    splitValues count result = .ok values ↔ result = .split values ∧ values.length = count := by
  cases result with
  | single value => simp [splitValues, Outcome.data]
  | split held =>
    by_cases hlength : held.length = count
    · simp only [splitValues, if_pos hlength, Except.ok.injEq, ChunkResult.split.injEq]
      exact ⟨fun h => ⟨h, h ▸ hlength⟩, And.left⟩
    · simp only [splitValues, if_neg hlength, Outcome.data, reduceCtorEq, ChunkResult.split.injEq,
        false_iff, not_and]
      rintro rfl
      exact hlength

omit [Scalar α] in
/-- The values of a window are taken exactly if all its chunks are in the expected regions. -/
theorem mapM_splitValues_iff {chunks : List (List (ChunkValue α))} :
    window.mapM (splitValues count) = .ok chunks ↔
      window = chunks.map .split ∧ ∀ values ∈ chunks, values.length = count := by
  rw [Outcome.mapM_eq_ok_iff]
  induction chunks generalizing window with
  | nil => simp
  | cons values chunks ih =>
    cases window with
    | nil => simp
    | cons result window =>
      rw [List.forall₂_cons, ih, splitValues_eq_ok_iff, List.map_cons, List.cons.injEq,
        List.forall_mem_cons]
      tauto

/-- The shaped values of a chunk are as many as the regions. -/
theorem length_of_mem_shaped {chunks : List (List (ChunkValue α))}
    (hchunks : window.mapM (splitValues count) = .ok chunks) (smartAdjust : Bool) :
    ∀ row ∈ chunks.map (List.map (ChunkValue.shaped smartAdjust)), row.length = count := by
  simpa using (mapM_splitValues_iff.mp hchunks).2

/-- The series of a window are the columns of its shaped values. -/
theorem regionSeries_eq (smartAdjust : Bool) :
    regionSeries smartAdjust count window = window.mapM (splitValues count) >>= fun chunks =>
      .ok (columns count (chunks.map (List.map (ChunkValue.shaped smartAdjust)))) := by
  have hloop := Outcome.foldlM_bind_ok window (splitValues count)
    (fun series values => List.zipWith Array.push series (values.map (ChunkValue.shaped smartAdjust)))
    (List.replicate count #[])
  refine hloop.trans ?_
  cases hchunks : window.mapM (splitValues count) with
  | error error => rfl
  | ok chunks =>
    have hrows := length_of_mem_shaped hchunks smartAdjust
    change Except.ok (chunks.foldl _ _) = Except.ok _
    rw [← List.foldl_map, ← columns_nil, foldl_push_columns [] hrows, List.nil_append]

/-- Bounds on the columns of a table are bounds on its rows, if every region has them. -/
theorem clipSeries_columns (params : PrivacyParams α) {rows : List (List α)}
    (hrows : ∀ row ∈ rows, row.length = count) :
    clipSeries params (columns count rows) =
      (List.range count).mapM (splitBounds params) >>= fun bounds =>
        .ok (columns count (rows.map (clipEach bounds))) := by
  have hzip : (columns count rows).zipIdx =
      (List.range count).map fun split => (column rows split, split) := by
    apply List.ext_getElem <;> simp [columns]
  have hread := Outcome.mapM_bind_ok (List.range count) (splitBounds params)
    fun split bound => (column rows split).map (Scalar.clip bound.1 bound.2)
  rw [clipSeries, hzip, List.mapM_map]
  refine hread.trans ?_
  cases hbounds : (List.range count).mapM (splitBounds params) with
  | error error => rfl
  | ok bounds =>
    have hlength := (Outcome.mapM_eq_ok_iff.mp hbounds).length_eq
    rw [List.length_range] at hlength
    exact congrArg Except.ok (zipWith_clip_columns hlength.symm hrows)

/-- Combining columns chunk by chunk combines the rows. -/
theorem map_combineAt_columns (combination : Combination) {rows : List (List α)}
    (hrows : ∀ row ∈ rows, row.length = count) :
    (List.range rows.length).map (combineAt combination (columns count rows)) =
      rows.map combination.combine := by
  apply List.ext_getElem
  · simp
  · intro chunk _ hchunk
    rw [List.length_map] at hchunk
    rw [List.getElem_map, List.getElem_map, List.getElem_range, combineAt,
      map_getD_columns hchunk (hrows _ (List.getElem_mem hchunk))]

/-- What a chunk in regions contributes if regions are combined before they are brought into
range. -/
def combinedThenClipped (params : PrivacyParams α) (smartAdjust : Bool)
    (values : List (ChunkValue α)) : α :=
  Scalar.clip params.lowest params.highest
    (params.combination.combine (values.map (ChunkValue.shaped smartAdjust)))

/-- What a chunk in regions contributes if each region is brought into its own bounds first. -/
def clippedThenCombined (params : PrivacyParams α) (smartAdjust : Bool) (bounds : List (α × α))
    (values : List (ChunkValue α)) : α :=
  params.combination.combine (clipEach bounds (values.map (ChunkValue.shaped smartAdjust)))

/-- The series that enter the combination are the columns of the shaped values, each in its own bounds
unless bounds are applied to the combination. -/
theorem enteringSeries_eq (params : PrivacyParams α) (smartAdjust afterSplit : Bool) :
    enteringSeries params smartAdjust count window afterSplit =
      window.mapM (splitValues count) >>= fun chunks =>
        let rows := chunks.map (List.map (ChunkValue.shaped smartAdjust))
        if afterSplit then .ok (columns count rows)
        else (List.range count).mapM (splitBounds params) >>= fun bounds =>
          .ok (columns count (rows.map (clipEach bounds))) := by
  rw [enteringSeries, regionSeries_eq]
  cases hchunks : window.mapM (splitValues count) with
  | error error => rfl
  | ok chunks =>
    cases afterSplit with
    | true => rfl
    | false => exact clipSeries_columns params (length_of_mem_shaped hchunks smartAdjust)

/-- A window in regions is shaped chunk by chunk. -/
theorem shapeRegions_eq {windowing : Windowing α} {params : PrivacyParams α} {afterSplit : Bool}
    (hprivacy : windowing.privacy = some params) (hcount : params.splitCount = some count) :
    windowing.shapeRegions window afterSplit =
      window.mapM (splitValues count) >>= fun chunks =>
        if afterSplit then .ok (chunks.map (combinedThenClipped params windowing.smartAdjust))
        else (List.range count).mapM (splitBounds params) >>= fun bounds =>
          .ok (chunks.map (clippedThenCombined params windowing.smartAdjust bounds)) := by
  rw [shapeRegions, hprivacy]
  dsimp only
  rw [hcount]
  dsimp only
  rw [enteringSeries_eq]
  cases hchunks : window.mapM (splitValues count) with
  | error error => rfl
  | ok chunks =>
    have hshaped := length_of_mem_shaped hchunks windowing.smartAdjust
    obtain ⟨rfl, -⟩ := mapM_splitValues_iff.mp hchunks
    cases afterSplit with
    | true =>
      have hcombined := map_combineAt_columns params.combination hshaped
      rw [List.length_map] at hcombined
      change Except.ok (List.map _ (List.map _ (List.range (chunks.map _).length))) = Except.ok _
      rw [List.length_map, hcombined, List.map_map, List.map_map]
      rfl
    | false =>
      cases hbounds : (List.range count).mapM (splitBounds params) with
      | error error => rfl
      | ok bounds =>
        have hcounted : bounds.length = count := by
          simpa using (Outcome.mapM_eq_ok_iff.mp hbounds).length_eq.symm
        have hrows : ∀ row ∈ (chunks.map (List.map (ChunkValue.shaped windowing.smartAdjust))).map
            (clipEach bounds), row.length = count := by
          intro row hrow
          obtain ⟨values, hvalues, rfl⟩ := List.mem_map.mp hrow
          rw [clipEach, List.length_zipWith, hcounted, hshaped values hvalues, min_self]
        have hcombined := map_combineAt_columns params.combination hrows
        rw [List.length_map, List.length_map] at hcombined
        change Except.ok (List.map _ (List.range (chunks.map _).length)) = Except.ok _
        rw [List.length_map, hcombined, List.map_map, List.map_map]
        rfl

end Windowing

end PrivateFootage
