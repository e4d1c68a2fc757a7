import Mathlib
import PrivateFootage.Proofs.Aggregator.Counting
import PrivateFootage.Proofs.Decimal.Order

/-!
# Objects that rise are objects that are counted

Counting keeps a set of numbers, and counting what rises keeps a table with two top edges for each number. Each
goes through the frames with a tracker of its own and notes what it sees. Both keep the same numbers, and the
table holds the top edges in the first and in the last frame in which the object is seen, however often it is lost
in between. So no more objects rise than are counted, and no more rise by a larger distance.
-/

namespace PrivateFootage

namespace Tracker

variable {α : Type} [Analytic α] {settings : TrackerSettings α} {frames : List (List (Detection α))}
  {detections : List (Detection α)} {index id : ℕ} {sighting : Sighting α} {box box' : Box α}

/-- An object is seen in a frame: it is visible in the tracker after that frame. -/
def SeenIn (settings : TrackerSettings α) (frames : List (List (Detection α))) (index : ℕ)
    (sighting : Sighting α) : Prop :=
  index < frames.length ∧ sighting ∈ (following settings (frames.take (index + 1))).visible

/-- The frames in which an object is seen. -/
def seenFrames (settings : TrackerSettings α) (frames : List (List (Detection α))) (id : ℕ) : Set ℕ :=
  {index | ∃ box, SeenIn settings frames index ⟨id, box⟩}

/-- One more frame adds what is visible after it. -/
theorem seenIn_concat : SeenIn settings (frames ++ [detections]) index sighting ↔
    SeenIn settings frames index sighting ∨
      index = frames.length ∧ sighting ∈ (following settings (frames ++ [detections])).visible := by
  have hlength : (frames ++ [detections]).length = frames.length + 1 := List.length_append
  rw [SeenIn, hlength, Nat.lt_succ_iff_lt_or_eq, or_and_right]
  refine or_congr (and_congr_right fun hlt => ?_) (and_congr_right fun hlast => ?_)
  · rw [List.take_append_of_le_length hlt]
  · rw [hlast, ← hlength, List.take_length]

/-- What is seen in the frames so far is seen in them when one more comes. -/
theorem SeenIn.concat (hseen : SeenIn settings frames index sighting) (detections : List (Detection α)) :
    SeenIn settings (frames ++ [detections]) index sighting :=
  seenIn_concat.mpr (.inl hseen)

/-- An object was seen before one more frame, or is visible after it. -/
theorem mem_seenFrames_concat : index ∈ seenFrames settings (frames ++ [detections]) id ↔
    index ∈ seenFrames settings frames id ∨
      index = frames.length ∧ ∃ box, ⟨id, box⟩ ∈ (following settings (frames ++ [detections])).visible := by
  simp only [seenFrames, Set.mem_ofPred_eq, seenIn_concat, exists_or, exists_and_left]

/-- What is seen in some frame is among the sightings. -/
theorem exists_seenIn_iff :
    (∃ index, SeenIn settings frames index sighting) ↔ sighting ∈ (sightings settings frames).flatten := by
  induction frames using List.reverseRecOn with
  | nil => simp [SeenIn, sightings]
  | append_singleton frames detections ih =>
    simp only [seenIn_concat, exists_or, ih, exists_eq_left, sightings_concat, List.flatten_append,
      List.flatten_singleton, List.mem_append]

/-- In a frame, an object is seen in one place only. -/
theorem SeenIn.box_eq (hseen : SeenIn settings frames index ⟨id, box⟩)
    (hseen' : SeenIn settings frames index ⟨id, box'⟩) : box = box' := by
  have hnodup := (numbered_following settings (frames.take (index + 1))).nodup_visible
  have hsame := List.inj_on_of_nodup_map hnodup hseen.2 hseen'.2 rfl
  exact congrArg Sighting.box hsame

end Tracker

namespace Aggregator

variable {α : Type} [Analytic α]

/-! ### Going through the frames -/

/-- Take the rows of a frame, and note each object that is then visible. -/
def watchFrame {β : Type} (filter : Filter α) (note : β → Sighting α → β) (state : Tracker α × β)
    (rows : List (Row α)) : Tracker α × β :=
  let next := state.1.step (filter.apply rows)
  (next, next.visible.foldl note state.2)

/-- What is noted in a chunk. -/
def watch {β : Type} (filter : Filter α) (settings : TrackerSettings α) (note : β → Sighting α → β) (start : β)
    (chunk : Chunk α) : β :=
  (chunk.foldl (watchFrame filter note) (Tracker.initial settings, start)).2

/-- The numbers of the objects that are counted in a chunk. -/
def countedIds (filter : Filter α) (settings : TrackerSettings α) (chunk : Chunk α) : Finset ℕ :=
  watch filter settings (fun ids sighting => insert sighting.id ids) ∅ chunk

/-- The top edge of an object where it was first seen and where it was last seen. -/
structure Climb (α : Type) where
  id : ℕ
  first : α
  last : α
deriving DecidableEq, Repr

/-- Note the top edge of a sighting: the first one of an object stays, the last one is replaced. -/
def noteTop : List (Climb α) → Sighting α → List (Climb α)
  | [], sighting => [⟨sighting.id, sighting.box.top, sighting.box.top⟩]
  | climb :: table, sighting =>
    if climb.id = sighting.id then { climb with last := sighting.box.top } :: table
    else climb :: noteTop table sighting

/-- The top edges that are kept for the objects of a chunk. -/
def climbs (filter : Filter α) (settings : TrackerSettings α) (chunk : Chunk α) : List (Climb α) :=
  watch filter settings noteTop [] chunk

/-- Each loop drives a tracker through the same frames, and notes the same sightings. -/
theorem foldl_watchFrame {β : Type} (filter : Filter α) (settings : TrackerSettings α)
    (note : β → Sighting α → β) (start : β) (chunk : Chunk α) :
    chunk.foldl (watchFrame filter note) (Tracker.initial settings, start) =
      (Tracker.following settings (chunk.map filter.apply),
        (Tracker.sightings settings (chunk.map filter.apply)).flatten.foldl note start) := by
  induction chunk using List.reverseRecOn with
  | nil => rfl
  | append_singleton chunk rows ih =>
    rw [List.foldl_append, ih, List.map_append, List.map_singleton, Tracker.sightings_concat,
      Tracker.following_concat, List.flatten_append, List.flatten_singleton, List.foldl_append]
    rfl

/-- What is noted in a chunk is what its sightings come to. -/
theorem watch_eq {β : Type} (filter : Filter α) (settings : TrackerSettings α) (note : β → Sighting α → β)
    (start : β) (chunk : Chunk α) :
    watch filter settings note start chunk =
      (Tracker.sightings settings (chunk.map filter.apply)).flatten.foldl note start :=
  congrArg Prod.snd (foldl_watchFrame filter settings note start chunk)

/-! ### The numbers -/

omit [Analytic α] in
/-- A set of numbers grows by those of the sightings. -/
theorem foldl_insert (sightings : List (Sighting α)) (ids : Finset ℕ) :
    sightings.foldl (fun ids sighting => insert sighting.id ids) ids =
      ids ∪ (sightings.map Sighting.id).toFinset := by
  induction sightings generalizing ids with
  | nil => simp
  | cons sighting sightings ih => simp [ih]

/-- The numbers that are counted are those of the sightings. -/
theorem countedIds_eq (filter : Filter α) (settings : TrackerSettings α) (chunk : Chunk α) :
    countedIds filter settings chunk =
      (identifiers (Tracker.sightings settings (chunk.map filter.apply))).toFinset := by
  rw [countedIds, watch_eq, foldl_insert, Finset.empty_union]
  ext id
  simp [identifiers]

/-- A count of tracks is the size of the set. -/
theorem count_invoke_eq (filter : Filter α) (settings : TrackerSettings α) (chunk : Chunk α) :
    (count filter settings).invoke chunk =
      .ok (.corrected (Scalar.ofNat (countedIds filter settings chunk).card)
        (boundaryCorrection (chunk.map filter.apply))) := by
  rw [countedIds_eq, List.toFinset_card_of_nodup (nodup_identifiers _)]
  rfl

/-! ### The table -/

/-- The top edges of an object, in the order of its sightings. -/
def ownTops (sightings : List (Sighting α)) (id : ℕ) : List α :=
  (sightings.filter fun sighting => sighting.id = id).map fun sighting => sighting.box.top

omit [Analytic α] in
/-- The top edges in two runs of sightings. -/
theorem ownTops_append (sightings sightings' : List (Sighting α)) (id : ℕ) :
    ownTops (sightings ++ sightings') id = ownTops sightings id ++ ownTops sightings' id := by
  rw [ownTops, List.filter_append, List.map_append]
  rfl

omit [Analytic α] in
/-- An object that is not among the sightings has no top edges. -/
theorem ownTops_eq_nil_iff {sightings : List (Sighting α)} {id : ℕ} :
    ownTops sightings id = [] ↔ id ∉ sightings.map Sighting.id := by
  simp [ownTops]

/-- A table notes sightings: it has the numbers in the order of first appearance, and for each the first and the
last top edge. -/
structure NotesTops (sightings : List (Sighting α)) (table : List (Climb α)) : Prop where
  ids_eq : table.map Climb.id = (sightings.map Sighting.id).eraseDups
  head?_eq : ∀ climb ∈ table, (ownTops sightings climb.id).head? = some climb.first
  getLast?_eq : ∀ climb ∈ table, (ownTops sightings climb.id).getLast? = some climb.last

variable {sightings : List (Sighting α)} {sighting : Sighting α} {table : List (Climb α)} {climb : Climb α}

omit [Analytic α] in
/-- The numbers after one more sighting. -/
theorem ids_noteTop (table : List (Climb α)) (sighting : Sighting α) :
    (noteTop table sighting).map Climb.id =
      if sighting.id ∈ table.map Climb.id then table.map Climb.id
      else table.map Climb.id ++ [sighting.id] := by
  induction table with
  | nil => rfl
  | cons climb table ih =>
    rw [noteTop]
    by_cases hid : climb.id = sighting.id
    · rw [if_pos hid, if_pos (by simp [hid])]
      rfl
    · have hmem : sighting.id ∈ (climb :: table).map Climb.id ↔ sighting.id ∈ table.map Climb.id := by
        simp [Ne.symm hid]
      rw [if_neg hid, List.map_cons, ih, if_congr hmem rfl rfl]
      split_ifs <;> rfl

omit [Analytic α] in
/-- What becomes of a table with one more sighting: the object of the sighting has a new last top edge, or is new
with one top edge; all others stay. -/
theorem mem_noteTop (hnodup : (table.map Climb.id).Nodup) (hclimb : climb ∈ noteTop table sighting) :
    (climb ∈ table ∧ climb.id ≠ sighting.id) ∨
    (∃ earlier ∈ table, earlier.id = sighting.id ∧ climb = { earlier with last := sighting.box.top }) ∨
    (sighting.id ∉ table.map Climb.id ∧ climb = ⟨sighting.id, sighting.box.top, sighting.box.top⟩) := by
  induction table with
  | nil => exact .inr (.inr ⟨List.not_mem_nil, List.mem_singleton.mp hclimb⟩)
  | cons head table ih =>
    obtain ⟨hfresh, hrest⟩ := List.nodup_cons.mp hnodup
    rw [noteTop] at hclimb
    by_cases hid : head.id = sighting.id
    · rw [if_pos hid] at hclimb
      rcases List.mem_cons.mp hclimb with rfl | hmem
      · exact .inr (.inl ⟨head, List.mem_cons_self, hid, rfl⟩)
      · refine .inl ⟨List.mem_cons_of_mem _ hmem, fun hsame => hfresh ?_⟩
        rw [hid, ← hsame]
        exact List.mem_map_of_mem hmem
    · rw [if_neg hid] at hclimb
      rcases List.mem_cons.mp hclimb with rfl | hmem
      · exact .inl ⟨List.mem_cons_self, hid⟩
      · rcases ih hrest hmem with ⟨hold, hne⟩ | ⟨earlier, hearlier, hlast⟩ | ⟨hnew, hlast⟩
        · exact .inl ⟨List.mem_cons_of_mem _ hold, hne⟩
        · exact .inr (.inl ⟨earlier, List.mem_cons_of_mem _ hearlier, hlast⟩)
        · exact .inr (.inr ⟨by simp [hnew, Ne.symm hid], hlast⟩)

omit [Analytic α] in
/-- One more sighting is noted. -/
theorem NotesTops.concat (hnotes : NotesTops sightings table) (sighting : Sighting α) :
    NotesTops (sightings ++ [sighting]) (noteTop table sighting) := by
  have hnodup : (table.map Climb.id).Nodup := hnotes.ids_eq ▸ nodup_eraseDups _
  have hmem : sighting.id ∈ table.map Climb.id ↔ sighting.id ∈ sightings.map Sighting.id := by
    rw [hnotes.ids_eq, List.mem_eraseDups]
  have hown : ownTops [sighting] sighting.id = [sighting.box.top] := by simp [ownTops]
  constructor
  · rw [ids_noteTop, if_congr hmem rfl rfl, hnotes.ids_eq, List.map_append, List.eraseDups_append]
    split_ifs with hold <;> simp [List.cons_removeAll, List.eraseDups_cons, hold]
  · intro climb hclimb
    rw [ownTops_append, List.head?_append]
    rcases mem_noteTop hnodup hclimb with ⟨hold, -⟩ | ⟨earlier, hearlier, -, rfl⟩ | ⟨hnew, rfl⟩
    · rw [hnotes.head?_eq climb hold, Option.some_or]
    · rw [hnotes.head?_eq earlier hearlier, Option.some_or]
    · rw [ownTops_eq_nil_iff.mpr (mt hmem.mpr hnew), hown]
      rfl
  · intro climb hclimb
    rw [ownTops_append, List.getLast?_append]
    rcases mem_noteTop hnodup hclimb with ⟨hold, hne⟩ | ⟨earlier, -, hid, rfl⟩ | ⟨-, rfl⟩
    · rw [ownTops_eq_nil_iff.mpr (by simpa using hne), hnotes.getLast?_eq climb hold]
      rfl
    · rw [hid, hown]
      rfl
    · rw [hown]
      rfl

omit [Analytic α] in
/-- All sightings are noted. -/
theorem notesTops_foldl (sightings : List (Sighting α)) : NotesTops sightings (sightings.foldl noteTop []) := by
  induction sightings using List.reverseRecOn with
  | nil => exact ⟨rfl, by simp, by simp⟩
  | append_singleton sightings sighting ih =>
    rw [List.foldl_append]
    exact ih.concat sighting

/-- The table of a chunk notes its sightings. -/
theorem notesTops_climbs (filter : Filter α) (settings : TrackerSettings α) (chunk : Chunk α) :
    NotesTops (Tracker.sightings settings (chunk.map filter.apply)).flatten (climbs filter settings chunk) := by
  rw [climbs, watch_eq]
  exact notesTops_foldl _

/-- The number of objects in a table that rose by more than a distance. -/
def risenCount (minDistance : α) (table : List (Climb α)) : ℕ :=
  table.countP fun climb => decide (minDistance < climb.first - climb.last)

/-- Whether an object has risen can be read off its place in the table. -/
theorem NotesTops.hasRisen_eq {sightings : List (List (Sighting α))} (hnotes : NotesTops sightings.flatten table)
    (minDistance : α) (hclimb : climb ∈ table) :
    hasRisen minDistance sightings climb.id = decide (minDistance < climb.first - climb.last) := by
  have hfirst := hnotes.head?_eq climb hclimb
  have hlast := hnotes.getLast?_eq climb hclimb
  rw [ownTops, List.head?_map, Option.map_eq_some_iff] at hfirst
  rw [ownTops, List.getLast?_map, Option.map_eq_some_iff] at hlast
  obtain ⟨first, hhead, hfirst⟩ := hfirst
  obtain ⟨last, hend, hlast⟩ := hlast
  rw [hasRisen, firstAndLastTop, hhead, hend, ← hfirst, ← hlast]

/-- A count of what rises is the number of objects in the table that rose. -/
theorem upward_invoke_eq (filter : Filter α) (settings : TrackerSettings α) (minDistance : α) (chunk : Chunk α) :
    (upward filter settings minDistance).invoke chunk =
      .ok (.plain (Scalar.ofNat (risenCount minDistance (climbs filter settings chunk)))) := by
  have hnotes := notesTops_climbs filter settings chunk
  have hcount : risenCount minDistance (climbs filter settings chunk) =
      ((identifiers (Tracker.sightings settings (chunk.map filter.apply))).filter
        (hasRisen minDistance (Tracker.sightings settings (chunk.map filter.apply)))).length := by
    rw [identifiers, ← hnotes.ids_eq, ← List.countP_eq_length_filter, List.countP_map, risenCount]
    refine List.countP_congr fun climb hclimb => ?_
    rw [Function.comp_apply, hnotes.hasRisen_eq minDistance hclimb]
  rw [hcount]
  rfl

/-! ### The frames of a climb -/

variable {settings : TrackerSettings α} {frames : List (List (Detection α))} {id : ℕ} {top : α}

omit [Analytic α] in
/-- A top edge is one of an object where it is visible. -/
theorem exists_visible_of_mem_ownTops {tracker : Tracker α} (htop : top ∈ ownTops tracker.visible id) :
    ∃ box : Box α, ⟨id, box⟩ ∈ tracker.visible ∧ box.top = top := by
  obtain ⟨sighting, hsighting, rfl⟩ := List.mem_map.mp htop
  obtain ⟨hvisible, hid⟩ := List.mem_filter.mp hsighting
  obtain rfl := of_decide_eq_true hid
  exact ⟨sighting.box, hvisible, rfl⟩

/-- An object without top edges was seen in no frame. -/
theorem notMem_seenFrames (hnone : ownTops (Tracker.sightings settings frames).flatten id = []) (index : ℕ) :
    index ∉ Tracker.seenFrames settings frames id := by
  rintro ⟨box, hseen⟩
  refine ownTops_eq_nil_iff.mp hnone ?_
  exact List.mem_map.mpr ⟨_, Tracker.exists_seenIn_iff.mp ⟨index, hseen⟩, rfl⟩

/-- The first top edge of an object is that in the first frame in which it is seen. -/
theorem exists_first_frame (hfirst : (ownTops (Tracker.sightings settings frames).flatten id).head? = some top) :
    ∃ index box, IsLeast (Tracker.seenFrames settings frames id) index ∧
      Tracker.SeenIn settings frames index ⟨id, box⟩ ∧ box.top = top := by
  induction frames using List.reverseRecOn with
  | nil => cases hfirst
  | append_singleton frames detections ih =>
    rw [Tracker.sightings_concat, List.flatten_append, List.flatten_singleton, ownTops_append,
      List.head?_append] at hfirst
    cases hbefore : (ownTops (Tracker.sightings settings frames).flatten id).head? with
    | some earliest =>
      rw [hbefore, Option.some_or] at hfirst
      obtain ⟨index, box, ⟨-, hleast⟩, hseen, htop⟩ := ih (hbefore.trans hfirst)
      refine ⟨index, box, ⟨⟨box, hseen.concat detections⟩, fun other hother => ?_⟩, hseen.concat detections, htop⟩
      rcases Tracker.mem_seenFrames_concat.mp hother with hother | ⟨rfl, -⟩
      · exact hleast hother
      · exact hseen.1.le
    | none =>
      rw [hbefore, Option.none_or] at hfirst
      obtain ⟨box, hvisible, htop⟩ := exists_visible_of_mem_ownTops (List.mem_of_mem_head? hfirst)
      have hseen := Tracker.seenIn_concat.mpr (.inr ⟨rfl, hvisible⟩)
      refine ⟨frames.length, box, ⟨⟨box, hseen⟩, fun other hother => ?_⟩, hseen, htop⟩
      rcases Tracker.mem_seenFrames_concat.mp hother with hother | ⟨rfl, -⟩
      · exact absurd hother (notMem_seenFrames (List.head?_eq_none_iff.mp hbefore) other)
      · exact le_rfl

/-- The last top edge of an object is that in the last frame in which it is seen. -/
theorem exists_last_frame (hlast : (ownTops (Tracker.sightings settings frames).flatten id).getLast? = some top) :
    ∃ index box, IsGreatest (Tracker.seenFrames settings frames id) index ∧
      Tracker.SeenIn settings frames index ⟨id, box⟩ ∧ box.top = top := by
  induction frames using List.reverseRecOn with
  | nil => cases hlast
  | append_singleton frames detections ih =>
    rw [Tracker.sightings_concat, List.flatten_append, List.flatten_singleton, ownTops_append,
      List.getLast?_append] at hlast
    cases hafter : (ownTops (Tracker.following settings (frames ++ [detections])).visible id).getLast? with
    | some latest =>
      rw [hafter, Option.some_or] at hlast
      obtain ⟨box, hvisible, htop⟩ := exists_visible_of_mem_ownTops (List.mem_of_getLast? (hafter.trans hlast))
      have hseen := Tracker.seenIn_concat.mpr (.inr ⟨rfl, hvisible⟩)
      refine ⟨frames.length, box, ⟨⟨box, hseen⟩, fun other hother => ?_⟩, hseen, htop⟩
      rcases Tracker.mem_seenFrames_concat.mp hother with ⟨box', hbefore⟩ | ⟨rfl, -⟩
      · exact hbefore.1.le
      · exact le_rfl
    | none =>
      rw [hafter, Option.none_or] at hlast
      obtain ⟨index, box, ⟨-, hgreatest⟩, hseen, htop⟩ := ih hlast
      refine ⟨index, box, ⟨⟨box, hseen.concat detections⟩, fun other hother => ?_⟩, hseen.concat detections, htop⟩
      rcases Tracker.mem_seenFrames_concat.mp hother with hother | ⟨-, box', hvisible⟩
      · exact hgreatest hother
      · exact absurd (List.mem_map_of_mem hvisible) (ownTops_eq_nil_iff.mp (List.getLast?_eq_none_iff.mp hafter))

/-- A place in the table holds the top edges in the first and in the last frame in which the object is seen. -/
structure Climb.IsFirstToLast (settings : TrackerSettings α) (frames : List (List (Detection α)))
    (climb : Climb α) : Prop where
  first_frame : ∃ index box, IsLeast (Tracker.seenFrames settings frames climb.id) index ∧
    Tracker.SeenIn settings frames index ⟨climb.id, box⟩ ∧ box.top = climb.first
  last_frame : ∃ index box, IsGreatest (Tracker.seenFrames settings frames climb.id) index ∧
    Tracker.SeenIn settings frames index ⟨climb.id, box⟩ ∧ box.top = climb.last

/-- The numbers in the table are those that are counted. -/
theorem ids_climbs (filter : Filter α) (settings : TrackerSettings α) (chunk : Chunk α) :
    (climbs filter settings chunk).map Climb.id =
      identifiers (Tracker.sightings settings (chunk.map filter.apply)) :=
  (notesTops_climbs filter settings chunk).ids_eq

/-- The numbers that are counted are those of objects that are seen. -/
theorem mem_countedIds_iff (filter : Filter α) (chunk : Chunk α) : id ∈ countedIds filter settings chunk ↔
    (Tracker.seenFrames settings (chunk.map filter.apply) id).Nonempty := by
  rw [countedIds_eq, List.mem_toFinset, identifiers, List.mem_eraseDups, List.mem_map]
  constructor
  · rintro ⟨sighting, hsighting, rfl⟩
    obtain ⟨index, hseen⟩ := Tracker.exists_seenIn_iff.mpr hsighting
    exact ⟨index, sighting.box, hseen⟩
  · rintro ⟨index, box, hseen⟩
    exact ⟨⟨id, box⟩, Tracker.exists_seenIn_iff.mp ⟨index, hseen⟩, rfl⟩

/-- Whatever the filter, the settings and the chunk, the numbers for which top edges are kept are those that are
counted, each once, and they are the numbers of the objects that are seen in some frame. The top edges kept for
an object are those in the first and in the last frame in which it is seen, and in a frame an object has one box.
A count of what rises is the number of objects that rose by more than the distance. So it is never more than the
count of objects, and it does not grow with the distance. -/
theorem upward_agrees_with_count (filter : Filter Float) (settings : TrackerSettings Float)
    (chunk : Chunk Float) :
    (count filter settings).invoke chunk =
      .ok (.corrected (Scalar.ofNat (countedIds filter settings chunk).card)
        (boundaryCorrection (chunk.map filter.apply))) ∧
    (∀ minDistance, (upward filter settings minDistance).invoke chunk =
      .ok (.plain (Scalar.ofNat (risenCount minDistance (climbs filter settings chunk))))) ∧
    ((climbs filter settings chunk).map Climb.id).Nodup ∧
    ((climbs filter settings chunk).map Climb.id).toFinset = countedIds filter settings chunk ∧
    (∀ id, id ∈ countedIds filter settings chunk ↔
      (Tracker.seenFrames settings (chunk.map filter.apply) id).Nonempty) ∧
    (∀ climb ∈ climbs filter settings chunk, climb.IsFirstToLast settings (chunk.map filter.apply)) ∧
    (∀ index id box box', Tracker.SeenIn settings (chunk.map filter.apply) index ⟨id, box⟩ →
      Tracker.SeenIn settings (chunk.map filter.apply) index ⟨id, box'⟩ → box = box') ∧
    (∀ minDistance : Float, Scalar.ofNat (risenCount minDistance (climbs filter settings chunk)) ≤
      (Scalar.ofNat (countedIds filter settings chunk).card : Float)) ∧
    ∀ minDistance larger : Float, minDistance ≤ larger →
      Scalar.ofNat (risenCount larger (climbs filter settings chunk)) ≤
        (Scalar.ofNat (risenCount minDistance (climbs filter settings chunk)) : Float) := by
  have hnotes := notesTops_climbs filter settings chunk
  have hids := ids_climbs filter settings chunk
  have hcounted : ((climbs filter settings chunk).map Climb.id).toFinset = countedIds filter settings chunk := by
    rw [hids, countedIds_eq]
  have hnodup : ((climbs filter settings chunk).map Climb.id).Nodup := hids ▸ nodup_identifiers _
  refine ⟨count_invoke_eq filter settings chunk, fun _ => upward_invoke_eq filter settings _ chunk, hnodup, hcounted,
    fun _ => mem_countedIds_iff filter chunk, fun climb hclimb => ?_, fun _ _ _ _ => Tracker.SeenIn.box_eq,
    fun minDistance => ?_, fun minDistance larger hle => ?_⟩
  · exact ⟨exists_first_frame (hnotes.head?_eq climb hclimb), exists_last_frame (hnotes.getLast?_eq climb hclimb)⟩
  · apply Binary.ofNat_le_ofNat
    rw [← hcounted, List.toFinset_card_of_nodup hnodup, List.length_map]
    exact List.countP_le_length
  · apply Binary.ofNat_le_ofNat
    refine List.countP_mono_left fun climb _ hrisen => ?_
    exact decide_eq_true (Binary.double_lt_of_le_of_lt hle (of_decide_eq_true hrisen))

/-- An object that is confirmed, lost in the next frame and found again further up. -/
def climbingChunk : Chunk Float :=
  [[⟨0, 0, ⟨0, 20, 10, 10⟩, 0.9, []⟩], [⟨1, 1, ⟨0, 20, 10, 10⟩, 0.9, [0.5]⟩], [],
    [⟨3, 3, ⟨0, 16, 10, 10⟩, 0.9, []⟩]]

/-- The detections of its frames. -/
def climbingFrames : List (List (Detection Float)) := climbingChunk.map Filter.standard.apply

/-- The object is seen before and after the frame in which it is lost, and rises from the first to the last of
these by more than three, but not by more than four. -/
theorem upward_agrees_with_count_lost_and_found :
    climbs Filter.standard Tracker.hastySettings climbingChunk = [⟨1, 20, 16⟩] ∧
    (⟨1, 20, 16⟩ : Climb Float).IsFirstToLast Tracker.hastySettings climbingFrames ∧
    2 ∉ Tracker.seenFrames Tracker.hastySettings climbingFrames 1 ∧
    (∀ box, Tracker.SeenIn Tracker.hastySettings climbingFrames 3 ⟨1, box⟩ → box = ⟨0, 16, 10, 10⟩) ∧
    (upward Filter.standard Tracker.hastySettings 3).invoke climbingChunk = .ok (.plain 1) ∧
    (upward Filter.standard Tracker.hastySettings 4).invoke climbingChunk = .ok (.plain 0) ∧
    (3 : Float) ≤ 4 ∧ (0 : Float) ≤ 1 := by
  have htable : climbs Filter.standard Tracker.hastySettings climbingChunk = [⟨1, 20, 16⟩] := by decide +kernel
  have hthree : Scalar.ofNat (risenCount 3 [(⟨1, 20, 16⟩ : Climb Float)]) = (1 : Float) := by decide +kernel
  have hfour : Scalar.ofNat (risenCount 4 [(⟨1, 20, 16⟩ : Climb Float)]) = (0 : Float) := by decide +kernel
  have hle : (3 : Float) ≤ 4 := by decide +kernel
  have hlost : (Tracker.following Tracker.hastySettings (climbingFrames.take 3)).visible = [] := by decide +kernel
  have hfound : Tracker.SeenIn Tracker.hastySettings climbingFrames 3 ⟨1, ⟨0, 16, 10, 10⟩⟩ :=
    ⟨by decide +kernel, by decide +kernel⟩
  obtain ⟨-, hrisen, -, -, -, hclimbs, hbox, -, hless⟩ :=
    upward_agrees_with_count Filter.standard Tracker.hastySettings climbingChunk
  rw [htable] at hrisen hclimbs hless
  have hvalues := hless 3 4 hle
  rw [hthree, hfour] at hvalues
  refine ⟨htable, hclimbs _ (List.mem_singleton_self _), ?_, fun box hseen => hbox 3 1 _ _ hseen hfound, ?_, ?_,
    hle, hvalues⟩
  · rintro ⟨box, -, hvisible⟩
    rw [hlost] at hvisible
    cases hvisible
  · rw [hrisen, hthree]
  · rw [hrisen, hfour]

end Aggregator

end PrivateFootage
