import Mathlib
import PrivateFootage.Proofs.Chunk.Cut

/-!
# Sequences that break off, and sequences read in step

A sequence that is read step by step either reaches its end or breaks off with an error. If it breaks
off, it does so strictly before its end would have come. Cutting into chunks keeps this: an error
takes the place of a chunk that the whole sequence would have had.

Reading sequences in step stops with the shortest of them. Among sequences that would all have the
same length no error is missed that way: the sequence that breaks off is the shorter one, so the rows
break off with it. Where none breaks off, the rows are the positions of the sequences, all of them.
-/

namespace PrivateFootage

variable {β γ δ : Type}

/-! ### Lists in pairs -/

/-- Every item on the right of a pairing has a partner on the left. -/
theorem exists_left_of_forall₂ {related : β → γ → Prop} {lefts : List β} {rights : List γ}
    (hpairs : List.Forall₂ related lefts rights) {right : γ} (hright : right ∈ rights) :
    ∃ left ∈ lefts, related left right := by
  induction hpairs with
  | nil => cases hright
  | cons hhead _ ih =>
    rcases List.mem_cons.mp hright with rfl | hright
    · exact ⟨_, List.mem_cons_self .., hhead⟩
    · obtain ⟨left, hleft, hrelated⟩ := ih hright
      exact ⟨left, List.mem_cons_of_mem _ hleft, hrelated⟩

/-- Every item on the left of a pairing has a partner on the right. -/
theorem exists_right_of_forall₂ {related : β → γ → Prop} {lefts : List β} {rights : List γ}
    (hpairs : List.Forall₂ related lefts rights) {left : β} (hleft : left ∈ lefts) :
    ∃ right ∈ rights, related left right :=
  exists_left_of_forall₂ hpairs.flip hleft

/-- Lists are paired by way of a third kind of item exactly if there is a list of these between
them. -/
theorem forall₂_exists_iff {before : β → γ → Prop} {after : γ → δ → Prop} {lefts : List β}
    {rights : List δ} :
    List.Forall₂ (fun left right => ∃ middle, before left middle ∧ after middle right)
        lefts rights ↔
      ∃ middles, List.Forall₂ before lefts middles ∧ List.Forall₂ after middles rights := by
  constructor
  · intro hpairs
    induction hpairs with
    | nil => exact ⟨[], .nil, .nil⟩
    | cons hhead _ ih =>
      obtain ⟨middle, hbefore, hafter⟩ := hhead
      obtain ⟨middles, hbefores, hafters⟩ := ih
      exact ⟨middle :: middles, .cons hbefore hbefores, .cons hafter hafters⟩
  · rintro ⟨middles, hbefores, hafters⟩
    induction hbefores generalizing rights with
    | nil =>
      cases hafters
      exact .nil
    | cons hbefore _ ih =>
      cases hafters with
      | cons hafter hafters => exact .cons ⟨_, hbefore, hafter⟩ (ih hafters)

/-! ### Reading step by step -/

/-- A sequence of a given length that is read to its end, or breaks off before it with an error. -/
inductive ReadUpTo : ℕ → List (Outcome β) → Prop
  | done : ReadUpTo 0 []
  | broken (error : Error) (length : ℕ) : ReadUpTo (length + 1) [.error error]
  | next {length : ℕ} {rest : List (Outcome β)} (item : β) (hrest : ReadUpTo length rest) :
      ReadUpTo (length + 1) (.ok item :: rest)

/-- Reading the sequence runs into an error. -/
def BreaksOff (items : List (Outcome β)) : Prop :=
  ∃ error, .error error ∈ items

/-- A sequence without errors does not break off. -/
theorem not_breaksOff_map_ok (items : List β) : ¬BreaksOff (items.map Except.ok) := by
  rintro ⟨error, herror⟩
  obtain ⟨item, -, hitem⟩ := List.mem_map.mp herror
  cases hitem

/-- Items that are all obtained go before what is read after them. -/
theorem ReadUpTo.append_left (items : List β) {length : ℕ} {rest : List (Outcome β)}
    (hrest : ReadUpTo length rest) : ReadUpTo (items.length + length) (items.map .ok ++ rest) := by
  induction items with
  | nil => simpa using hrest
  | cons item items ih =>
    rw [List.length_cons, Nat.add_right_comm]
    exact .next item ih

/-- A sequence without errors is read to its end. -/
theorem readUpTo_map_ok (items : List β) : ReadUpTo items.length (items.map .ok) := by
  simpa using ReadUpTo.append_left items .done

/-- A sequence with an error after fewer items than its length breaks off there. -/
theorem readUpTo_append_error {items : List β} {length : ℕ} (error : Error)
    (hlt : items.length < length) : ReadUpTo length (items.map .ok ++ [.error error]) := by
  obtain ⟨missing, rfl⟩ := Nat.exists_eq_add_of_lt hlt
  exact .append_left items (.broken error missing)

/-- A sequence is read to its end, or it breaks off after fewer items than its length. -/
theorem ReadUpTo.whole_or_broken {length : ℕ} {items : List (Outcome β)}
    (hread : ReadUpTo length items) :
    (∃ values : List β, items = values.map .ok ∧ values.length = length) ∨
      ∃ (values : List β) (error : Error),
        items = values.map .ok ++ [.error error] ∧ values.length < length := by
  induction hread with
  | done => exact .inl ⟨[], rfl, rfl⟩
  | broken error length => exact .inr ⟨[], error, rfl, Nat.succ_pos _⟩
  | next item _ ih =>
    rcases ih with ⟨values, rfl, rfl⟩ | ⟨values, error, rfl, hlt⟩
    · exact .inl ⟨item :: values, rfl, rfl⟩
    · exact .inr ⟨item :: values, error, rfl, Nat.succ_lt_succ hlt⟩

/-- A sequence that does not break off is a list of items of its length. -/
theorem ReadUpTo.eq_map_ok {length : ℕ} {items : List (Outcome β)} (hread : ReadUpTo length items)
    (hwhole : ¬BreaksOff items) :
    ∃ values : List β, items = values.map .ok ∧ values.length = length := by
  rcases hread.whole_or_broken with hvalues | ⟨values, error, rfl, -⟩
  · exact hvalues
  · exact absurd ⟨error, by simp⟩ hwhole

/-- A sequence without errors has its length. -/
theorem ReadUpTo.length_eq {length : ℕ} {items : List β} (hread : ReadUpTo length (items.map .ok)) :
    items.length = length := by
  obtain ⟨values, hvalues, rfl⟩ := hread.eq_map_ok (not_breaksOff_map_ok items)
  simpa using congrArg List.length hvalues

/-! ### Cutting -/

/-- An error takes the place of the chunk under way; the whole groups before it are kept. -/
theorem cutFrom_error {size : ℕ} (hpos : 0 < size) (cut : List (Outcome (List β)))
    (chunk items : List β) (error : Error) (hchunk : chunk.length < size) :
    cutFrom size cut chunk.reverse chunk.length (items.map .ok ++ [.error error]) =
      cut.reverse ++ (groupsOf size (chunk ++ items)).map .ok ++ [.error error] := by
  induction items generalizing cut chunk with
  | nil => simp [cutFrom, groupsOf_of_lt hchunk]
  | cons item items ih =>
    have hlength : chunk.length + 1 = (chunk ++ [item]).length := by simp
    have hjoin : chunk ++ item :: items = chunk ++ [item] ++ items := by simp
    have hreverse : item :: chunk.reverse = (chunk ++ [item]).reverse := by simp
    rw [hjoin, List.map_cons, List.cons_append, cutFrom, hreverse, hlength]
    split
    · next hlt => exact ih cut (chunk ++ [item]) hlt
    · next hge =>
      have hwhole : (chunk ++ [item]).length = size := by simp at hge ⊢; omega
      have hrest := ih (.ok (chunk ++ [item]) :: cut) [] (by simpa using hpos)
      rw [List.reverse_nil, List.length_nil, List.nil_append] at hrest
      have hgroups : groupsOf size (chunk ++ [item] ++ items) =
          (chunk ++ [item]) :: groupsOf size items := by
        rw [groupsOf_of_le hpos (by rw [List.length_append]; omega), ← hwhole, List.take_left,
          List.drop_left]
      rw [List.reverse_reverse, hrest, hgroups]
      simp

/-- A sequence that breaks off is cut into the whole groups before the error. -/
theorem cutChunks_error {size : ℕ} (hpos : 0 < size) (items : List β) (error : Error) :
    cutChunks size (items.map .ok ++ [.error error]) =
      (groupsOf size items).map .ok ++ [.error error] := by
  have hcut := cutFrom_error hpos [] [] items error hpos
  simpa [cutChunks] using hcut

/-- A sequence with items has as many chunks as its length over their size, rounded up. -/
theorem length_chunkPieces {size : ℕ} (hpos : 0 < size) {items : List β} (hitems : items ≠ []) :
    (chunkPieces size items).length = (items.length + size - 1) / size := by
  rw [chunkPieces, if_neg hitems, pieces, List.length_append, length_groupsOf]
  have hsplit := Nat.div_add_mod items.length size
  have hlt := Nat.mod_lt items.length hpos
  split
  · next hmod =>
    rw [List.length_nil, Nat.add_zero]
    symm
    apply Nat.div_eq_of_lt_le <;> rw [Nat.mul_comm]
    · omega
    · rw [Nat.mul_succ]
      omega
  · next hmod =>
    rw [List.length_singleton]
    symm
    apply Nat.div_eq_of_lt_le <;> rw [Nat.mul_comm, Nat.mul_succ]
    · omega
    · rw [Nat.mul_succ]
      omega

/-- A chunk that breaks off would have been one of the chunks of the whole sequence. -/
theorem div_lt_of_lt {size length count : ℕ} (hpos : 0 < size) (hlt : count < length) :
    count / size < (length + size - 1) / size := by
  rw [Nat.lt_iff_add_one_le, ← Nat.add_div_right _ hpos]
  exact Nat.div_le_div_right (by omega)

/-- Cutting a sequence gives a sequence of as many chunks as the whole one has. -/
theorem ReadUpTo.cutChunks {size length : ℕ} (hpos : 0 < size) (hlength : 0 < length)
    {items : List (Outcome β)} (hread : ReadUpTo length items) :
    ReadUpTo ((length + size - 1) / size) (cutChunks size items) := by
  rcases hread.whole_or_broken with ⟨values, rfl, rfl⟩ | ⟨values, error, rfl, hlt⟩
  · rw [cutChunks_ok hpos, ← length_chunkPieces hpos (List.ne_nil_of_length_pos hlength)]
    exact readUpTo_map_ok _
  · rw [cutChunks_error hpos]
    apply readUpTo_append_error
    rw [length_groupsOf]
    exact div_lt_of_lt hpos hlt

/-- Reading a sequence in chunks gives a sequence of as many chunks as the whole one has. -/
theorem ReadUpTo.readChunks {size length : ℕ} (hpos : 0 < size) (hlength : 0 < length)
    {items : List (Outcome β)} (hread : ReadUpTo length items) :
    ReadUpTo ((length + size - 1) / size) (readChunks size items) := by
  rcases le_or_gt size chunkCapacity with hsize | hsize
  · rw [readChunks_of_le hsize]
    exact hread.cutChunks hpos hlength
  · rw [readChunks_of_lt hsize]
    have hnone : ([] : List (List β)).length < (length + size - 1) / size :=
      (Nat.zero_le _).trans_lt (div_lt_of_lt hpos hlength)
    exact readUpTo_append_error .capacity hnone

/-- Chunks that are read to the end are those that the sequence is cut into. -/
theorem cutChunks_of_readChunks {size : ℕ} {items : List (Outcome β)} {chunks : List (List β)}
    (hchunks : readChunks size items = chunks.map .ok) : cutChunks size items = chunks.map .ok := by
  rcases le_or_gt size chunkCapacity with hsize | hsize
  · rwa [readChunks_of_le hsize] at hchunks
  · rw [readChunks_of_lt hsize] at hchunks
    exact absurd ⟨_, hchunks ▸ List.mem_singleton_self _⟩ (not_breaksOff_map_ok chunks)

/-! ### Reading in step -/

/-- Finished rows stay in front of those that follow. -/
theorem extendRows_eq (extended rows : List (Outcome (List β))) (items : List (Outcome β)) :
    extendRows extended rows items = extended.reverse ++ extendRows [] rows items := by
  induction rows generalizing extended items with
  | nil => cases items <;> simp [extendRows]
  | cons row rows ih =>
    cases row with
    | error error => simp [extendRows]
    | ok row =>
      cases items with
      | nil => simp [extendRows]
      | cons item items =>
        cases item with
        | error error => simp [extendRows]
        | ok item =>
          rw [extendRows, ih, extendRows, ih [_]]
          simp

/-- A row and an item that are both there make the next row. -/
theorem extendRows_ok (row : List β) (item : β) (rows : List (Outcome (List β)))
    (items : List (Outcome β)) :
    extendRows [] (.ok row :: rows) (.ok item :: items) =
      .ok (row ++ [item]) :: extendRows [] rows items := by
  rw [extendRows, extendRows_eq]
  rfl

/-- Extending rows by a sequence of the same length gives rows of that length, which break off as
soon as either does. -/
theorem ReadUpTo.extendRows {length : ℕ} {rows : List (Outcome (List β))}
    {items : List (Outcome β)} (hrows : ReadUpTo length rows) (hitems : ReadUpTo length items) :
    ReadUpTo length (extendRows [] rows items) ∧
      (BreaksOff rows ∨ BreaksOff items → BreaksOff (extendRows [] rows items)) := by
  induction hrows generalizing items with
  | done =>
    cases hitems
    refine ⟨.done, ?_⟩
    rintro (⟨error, h⟩ | ⟨error, h⟩) <;> cases h
  | broken error length =>
    have hbroken : PrivateFootage.extendRows [] [.error error] items = [.error error] := by
      cases items <;> rfl
    rw [hbroken]
    exact ⟨.broken error length, fun _ => ⟨error, List.mem_singleton_self _⟩⟩
  | @next length rows row _ ih =>
    cases hitems with
    | broken error =>
      exact ⟨.broken error length, fun _ => ⟨error, List.mem_singleton_self _⟩⟩
    | next item hrest =>
      obtain ⟨hread, hbreaks⟩ := ih hrest
      rw [extendRows_ok]
      refine ⟨.next _ hread, ?_⟩
      have hlater : ∀ {δ : Type} {first : δ} {others : List (Outcome δ)},
          BreaksOff (.ok first :: others) → BreaksOff others := by
        rintro δ first others ⟨error, herror⟩
        exact ⟨error, (List.mem_cons.mp herror).resolve_left (by simp)⟩
      intro h
      obtain ⟨error, herror⟩ := hbreaks (h.imp hlater hlater)
      exact ⟨error, List.mem_cons_of_mem _ herror⟩

/-- Sequences of one length make rows of that length, which break off as soon as one of them does. -/
theorem ReadUpTo.foldl_extendRows {length : ℕ} {rows : List (Outcome (List β))}
    {streams : List (List (Outcome β))} (hrows : ReadUpTo length rows)
    (hstreams : ∀ stream ∈ streams, ReadUpTo length stream) :
    BreaksOff rows ∨ (∃ stream ∈ streams, BreaksOff stream) →
      BreaksOff (streams.foldl (PrivateFootage.extendRows []) rows) := by
  induction streams generalizing rows with
  | nil => simp
  | cons stream streams ih =>
    obtain ⟨hread, hbreaks⟩ := hrows.extendRows (hstreams stream (List.mem_cons_self ..))
    have hrest := ih hread fun other hother => hstreams other (List.mem_cons_of_mem _ hother)
    rintro (h | ⟨other, hother, h⟩)
    · exact hrest (.inl (hbreaks (.inl h)))
    · rcases List.mem_cons.mp hother with rfl | hother
      · exact hrest (.inl (hbreaks (.inr h)))
      · exact hrest (.inr ⟨other, hother, h⟩)

/-- Making a row of each item changes neither the length of a sequence nor where it breaks off. -/
theorem ReadUpTo.map {length : ℕ} {items : List (Outcome β)} (hread : ReadUpTo length items)
    (f : β → γ) : ReadUpTo length (items.map fun item => item.map f) := by
  induction hread with
  | done => exact .done
  | broken error length => exact .broken error length
  | next item _ ih => exact .next (f item) ih

/-- If one of several sequences of one length breaks off, so do they in step. -/
theorem breaksOff_lockstep {length : ℕ} {streams : List (List (Outcome β))}
    (hstreams : ∀ stream ∈ streams, ReadUpTo length stream)
    (hbroken : ∃ stream ∈ streams, BreaksOff stream) : BreaksOff (lockstep streams) := by
  obtain ⟨stream, hstream, hbreaks⟩ := hbroken
  cases streams with
  | nil => cases hstream
  | cons first rest =>
    have hfirst := (hstreams first (List.mem_cons_self ..)).map fun value => [value]
    apply hfirst.foldl_extendRows fun other hother => hstreams other (List.mem_cons_of_mem _ hother)
    rcases List.mem_cons.mp hstream with rfl | hstream
    · obtain ⟨error, herror⟩ := hbreaks
      exact .inl ⟨error, List.mem_map.mpr ⟨.error error, herror, rfl⟩⟩
    · exact .inr ⟨stream, hstream, hbreaks⟩

/-- Put the next item of a list to each row, as long as both go on. -/
def joinRow (rows : List (List β)) (items : List β) : List (List β) :=
  List.zipWith (fun row item => row ++ [item]) rows items

/-- Without errors, extending rows joins them with the items. -/
theorem extendRows_map_ok (rows : List (List β)) (items : List β) :
    extendRows [] (rows.map .ok) (items.map .ok) = (joinRow rows items).map .ok := by
  induction rows generalizing items with
  | nil => cases items <;> rfl
  | cons row rows ih =>
    cases items with
    | nil => rfl
    | cons item items =>
      rw [List.map_cons, List.map_cons, extendRows_ok, ih]
      rfl

/-- Without errors, reading in step joins the sequences by position. -/
theorem lockstep_map_ok (regions : List (List β)) :
    lockstep (regions.map fun items => items.map .ok) = (joinRows regions).map .ok := by
  have hfold : ∀ (rest rows : List (List β)),
      (rest.map fun items => items.map Except.ok).foldl (extendRows []) (rows.map .ok) =
        (rest.foldl joinRow rows).map .ok := by
    intro rest
    induction rest with
    | nil => simp
    | cons items rest ih =>
      intro rows
      rw [List.map_cons, List.foldl_cons, extendRows_map_ok, ih, List.foldl_cons]
  cases regions with
  | nil => rfl
  | cons first rest =>
    have hrest := hfold rest (first.map fun value => [value])
    rw [List.map_map] at hrest
    rw [List.map_cons, lockstep, List.map_map]
    exact hrest

/-- Sequences of one length, read in step, reach their end exactly if each of them does. -/
theorem lockstep_eq_map_ok_iff {length : ℕ} {streams : List (List (Outcome β))}
    (hstreams : ∀ stream ∈ streams, ReadUpTo length stream) {rows : List (List β)} :
    lockstep streams = rows.map .ok ↔
      ∃ recordings : List (List β), streams = recordings.map (List.map .ok) ∧
        joinRows recordings = rows := by
  constructor
  · intro hrows
    have hwhole : ∀ stream ∈ streams, ∃ items : List β, stream = items.map .ok := by
      intro stream hstream
      have hunbroken : ¬BreaksOff stream := by
        intro hbreaks
        have hbroken := breaksOff_lockstep hstreams ⟨stream, hstream, hbreaks⟩
        rw [hrows] at hbroken
        exact not_breaksOff_map_ok rows hbroken
      obtain ⟨items, hitems, -⟩ := (hstreams stream hstream).eq_map_ok hunbroken
      exact ⟨items, hitems⟩
    choose! recorded hrecorded using hwhole
    have hmap : streams = (streams.map recorded).map (List.map .ok) := by
      rw [List.map_map]
      conv_lhs => rw [← List.map_id streams]
      exact List.map_congr_left hrecorded
    refine ⟨streams.map recorded, hmap, ?_⟩
    rw [hmap, lockstep_map_ok] at hrows
    exact List.map_injective_iff.mpr (fun _ _ => Except.ok.inj) hrows
  · rintro ⟨recordings, rfl, rfl⟩
    exact lockstep_map_ok recordings

/-- Joining by position commutes with a function of the items. -/
theorem joinRows_map (f : β → γ) (regions : List (List β)) :
    joinRows (regions.map (List.map f)) = (joinRows regions).map (List.map f) := by
  have hfold : ∀ (rest rows : List (List β)),
      (rest.map (List.map f)).foldl joinRow (rows.map (List.map f)) =
        (rest.foldl joinRow rows).map (List.map f) := by
    intro rest
    induction rest with
    | nil => simp
    | cons items rest ih =>
      intro rows
      have hrow : joinRow (rows.map (List.map f)) (items.map f) =
          (joinRow rows items).map (List.map f) := by
        simp [joinRow, List.zipWith_map, List.map_zipWith]
      rw [List.map_cons, List.foldl_cons, hrow, ih, List.foldl_cons]
  cases regions with
  | nil => rfl
  | cons first rest =>
    have hrest := hfold rest (first.map fun value => [value])
    rw [List.map_map] at hrest
    rw [List.map_cons, joinRows, List.map_map]
    exact hrest

/-- Joining lists of one length to rows of that length adds, to the row at each position, the items at
that position. -/
theorem foldl_joinRow {length : ℕ} (rows : List (List β)) {rest : List (List β)}
    (hrows : rows.length = length) (hrest : ∀ items ∈ rest, items.length = length) :
    (rest.foldl joinRow rows).length = length ∧
      ∀ (i : ℕ) (row : List β), rows[i]? = some row → ∃ tail, (rest.foldl joinRow rows)[i]? = some (row ++ tail) ∧
        List.Forall₂ (fun items item => items[i]? = some item) rest tail := by
  induction rest generalizing rows with
  | nil => exact ⟨hrows, fun i row hrow => ⟨[], by simpa using hrow, .nil⟩⟩
  | cons items rest ih =>
    have hitems := hrest items (List.mem_cons_self ..)
    have hjoined : (joinRow rows items).length = length := by simp [joinRow, hrows, hitems]
    obtain ⟨hlength, hposition⟩ :=
      ih _ hjoined fun other hother => hrest other (List.mem_cons_of_mem _ hother)
    refine ⟨hlength, fun i row hrow => ?_⟩
    obtain ⟨hlt, -⟩ := List.getElem?_eq_some_iff.mp hrow
    obtain ⟨item, hitem⟩ : ∃ item, items[i]? = some item :=
      ⟨_, List.getElem?_eq_getElem (by omega)⟩
    have hnext : (joinRow rows items)[i]? = some (row ++ [item]) := by
      simp [joinRow, List.getElem?_zipWith, hrow, hitem]
    obtain ⟨tail, hat, htail⟩ := hposition i _ hnext
    exact ⟨item :: tail, by simpa using hat, .cons hitem htail⟩

/-- Lists of one length make as many rows, and the row at a position holds their items there. -/
theorem joinRows_at {length : ℕ} {regions : List (List β)} (hregions : regions ≠ [])
    (hlength : ∀ items ∈ regions, items.length = length) :
    (joinRows regions).length = length ∧
      ∀ i < length, ∃ row, (joinRows regions)[i]? = some row ∧
        List.Forall₂ (fun items item => items[i]? = some item) regions row := by
  cases regions with
  | nil => exact absurd rfl hregions
  | cons first rest =>
    have hfirst := hlength first (List.mem_cons_self ..)
    obtain ⟨hrows, hposition⟩ := foldl_joinRow (first.map fun value => [value])
      (by rw [List.length_map, hfirst])
      fun items hitems => hlength items (List.mem_cons_of_mem _ hitems)
    refine ⟨hrows, fun i hi => ?_⟩
    obtain ⟨item, hitem⟩ : ∃ item, first[i]? = some item :=
      ⟨_, List.getElem?_eq_getElem (by omega)⟩
    obtain ⟨tail, hat, htail⟩ := hposition i [item] (by simp [hitem])
    exact ⟨item :: tail, hat, .cons hitem htail⟩

/-- Every item of a row comes from one of the lists. -/
theorem exists_mem_of_mem_joinRows {length : ℕ} {regions : List (List β)}
    (hlength : ∀ items ∈ regions, items.length = length) {row : List β}
    (hrow : row ∈ joinRows regions) {item : β} (hitem : item ∈ row) :
    ∃ items ∈ regions, item ∈ items := by
  have hregions : regions ≠ [] := by
    rintro rfl
    cases hrow
  obtain ⟨hrows, hposition⟩ := joinRows_at hregions hlength
  obtain ⟨i, hi, rfl⟩ := List.getElem_of_mem hrow
  obtain ⟨row, hat, hpairs⟩ := hposition i (hrows ▸ hi)
  rw [List.getElem?_eq_getElem hi, Option.some.injEq] at hat
  rw [hat] at hitem
  obtain ⟨items, hitems, hfound⟩ := exists_left_of_forall₂ hpairs hitem
  exact ⟨items, hitems, List.mem_of_getElem? hfound⟩

/-- Every item of lists of one length stands in some row. -/
theorem exists_mem_joinRows {length : ℕ} {regions : List (List β)}
    (hlength : ∀ items ∈ regions, items.length = length) {items : List β} (hitems : items ∈ regions)
    {item : β} (hitem : item ∈ items) : ∃ row ∈ joinRows regions, item ∈ row := by
  obtain ⟨i, hi, rfl⟩ := List.getElem_of_mem hitem
  obtain ⟨-, hposition⟩ := joinRows_at (List.ne_nil_of_mem hitems) hlength
  obtain ⟨row, hrow, hpairs⟩ := hposition i (hlength items hitems ▸ hi)
  obtain ⟨item, hitem, hfound⟩ := exists_right_of_forall₂ hpairs hitems
  rw [List.getElem?_eq_getElem hi, Option.some.injEq] at hfound
  exact ⟨row, List.mem_of_getElem? hrow, hfound ▸ hitem⟩

end PrivateFootage
