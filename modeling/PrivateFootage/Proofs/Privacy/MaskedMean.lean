import Mathlib
import PrivateFootage.Proofs.Privacy.Params
import PrivateFootage.Proofs.Privacy.Sensitivity
import PrivateFootage.Proofs.Privacy.WindowChange
import PrivateFootage.Proofs.Window.Contribution

/-!
# What the sensitivity of a mean does not cover

A mean is taken over the chunks of a window, but its sensitivity is divided by the number of frames
in the window. The exact condition under which the sensitivity still bounds the change of a mean over
the masked scene is given here. It holds for chunks of one frame, and for windows so short that the
chunks one individual can touch outnumber the frames of a window. Whatever the condition, the change
is within the sensitivity times the frames of a chunk.
-/

namespace PrivateFootage

variable {windowing : Windowing ℚ} {params : PrivacyParams ℚ}

/-- How far apart two contributions of the masked scene can be: from what the lowest value comes to,
up to the highest value. Smart adjustment keeps contributions from going below zero. -/
def maskedSpread (windowing : Windowing ℚ) (params : PrivacyParams ℚ) : ℚ :=
  params.highest - windowing.shapeMasked (.plain params.lowest)

/-- A contribution of the masked scene in terms of minimum and maximum. -/
theorem shapeMasked_eq (hprivacy : windowing.privacy = some params) (value : ChunkValue ℚ) :
    windowing.shapeMasked value =
      min (max (value.shaped windowing.smartAdjust) params.lowest) params.highest := by
  rw [Windowing.shapeMasked, hprivacy]
  exact Exact.clip_eq _ _ _

/-- Smart adjustment of a value without correction only raises it to zero. -/
theorem shaped_plain (smartAdjust : Bool) (value : ℚ) :
    (ChunkValue.plain value).shaped smartAdjust = if smartAdjust then max value 0 else value := by
  simp [ChunkValue.shaped, ChunkValue.adjusted, ChunkValue.value, ChunkValue.correction]

/-- A smart-adjusted value is not negative. -/
theorem shaped_true_nonneg (value : ChunkValue ℚ) : 0 ≤ value.shaped true := by
  simp [ChunkValue.shaped, ChunkValue.adjusted]

/-- No value contributes less than the lowest one. -/
theorem shapeMasked_lowest_le (hprivacy : windowing.privacy = some params) (value : ChunkValue ℚ) :
    windowing.shapeMasked (.plain params.lowest) ≤ windowing.shapeMasked value := by
  rw [shapeMasked_eq hprivacy, shapeMasked_eq hprivacy, shaped_plain]
  apply min_le_min_right
  apply max_le _ (le_max_right _ _)
  cases windowing.smartAdjust with
  | false => exact le_max_right _ _
  | true => exact max_le (le_max_right _ _) ((shaped_true_nonneg value).trans (le_max_left _ _))

/-- No value contributes more than the highest one. -/
theorem shapeMasked_le_highest (hprivacy : windowing.privacy = some params) (value : ChunkValue ℚ) :
    windowing.shapeMasked value ≤ params.highest := by
  rw [shapeMasked_eq hprivacy]
  exact min_le_right _ _

/-- A value at or above the highest one contributes the highest one. -/
theorem shapeMasked_top (hprivacy : windowing.privacy = some params) :
    windowing.shapeMasked (.plain (max params.highest 0)) = params.highest := by
  rw [shapeMasked_eq hprivacy, shaped_plain]
  apply min_eq_right
  apply le_trans _ (le_max_left _ _)
  split
  · exact (le_max_left _ _).trans (le_max_left _ _)
  · exact le_max_left _ _

/-- Contributions are no further apart than the spread. -/
theorem abs_shapeMasked_sub_le_spread (hprivacy : windowing.privacy = some params)
    (x y : ChunkValue ℚ) :
    |windowing.shapeMasked x - windowing.shapeMasked y| ≤ maskedSpread windowing params := by
  have hx := shapeMasked_lowest_le hprivacy x
  have hy := shapeMasked_lowest_le hprivacy y
  have hx' := shapeMasked_le_highest hprivacy x
  have hy' := shapeMasked_le_highest hprivacy y
  rw [maskedSpread, abs_le]
  constructor <;> linarith

/-- The spread is at least zero. -/
theorem maskedSpread_nonneg (hprivacy : windowing.privacy = some params) :
    0 ≤ maskedSpread windowing params :=
  sub_nonneg.mpr (shapeMasked_le_highest hprivacy _)

/-- The spread is at most the width of the range. -/
theorem maskedSpread_le (hprivacy : windowing.privacy = some params) (haccepted : params.Accepted) :
    maskedSpread windowing params ≤ params.highest - params.lowest := by
  have hlowest : params.lowest ≤ windowing.shapeMasked (.plain params.lowest) := by
    rw [shapeMasked_eq hprivacy]
    exact le_min (le_max_right _ _) haccepted.lowest_le_highest
  rw [maskedSpread]
  linarith

/-- The windows of plain results of the masked scene. -/
theorem aggregate_masked {afterSplit : Bool} (hrendition : windowing.rendition = .masked)
    (hpos : 0 < windowing.chunksPerWindow) {values : List (ChunkValue ℚ)}
    (hdvd : windowing.chunksPerWindow ∣ values.length) :
    windowing.aggregate (values.map .single) afterSplit =
      .ok ((groupsOf windowing.chunksPerWindow values).map fun group =>
        windowing.function.reduce (group.map windowing.shapeMasked)) :=
  Windowing.aggregate_eq_ok hpos hdvd fun group _ => Windowing.shape_masked hrendition id group

/-- Each mean moves by at most the spread for every chunk that can have changed in its window, over
the number of chunks in a window. -/
theorem eachWindowWithin_of_changed {afterSplit : Bool} (hrendition : windowing.rendition = .masked)
    (hprivacy : windowing.privacy = some params) (hfunction : windowing.function = .mean)
    (hpos : 0 < windowing.chunksPerWindow) {before after : List (ChunkValue ℚ)}
    (hlength : before.length = after.length) (hdvd : windowing.chunksPerWindow ∣ before.length)
    {reach : ℚ} (hchanged : (changedCount before after : ℚ) ≤ reach) :
    EachWindowWithin windowing afterSplit (before.map .single) (after.map .single)
      (min (windowing.chunksPerWindow : ℚ) reach * maskedSpread windowing params /
        windowing.chunksPerWindow) := by
  refine ⟨_, _, aggregate_masked hrendition hpos hdvd,
    aggregate_masked hrendition hpos (hlength ▸ hdvd), by simp [hlength], ?_⟩
  intro pair hpair
  rw [List.zip_map] at hpair
  obtain ⟨groups, hgroups, rfl⟩ := List.mem_map.mp hpair
  have hmove := abs_meanWindow_sub_le windowing.shapeMasked (maskedSpread_nonneg hprivacy)
    (abs_shapeMasked_sub_le_spread hprivacy) hlength hgroups
  rw [Prod.map_fst, Prod.map_snd, hfunction]
  apply hmove.trans
  have hnonneg := maskedSpread_nonneg hprivacy
  gcongr

/-- A window in which some chunks are at the top of the range and the others at the bottom. -/
def raisedWindow (params : PrivacyParams ℚ) (raised rest : ℕ) : List (ChunkValue ℚ) :=
  List.replicate raised (.plain (max params.highest 0)) ++ List.replicate rest (.plain params.lowest)

/-- Raising some chunks changes no others. -/
theorem changedCount_raisedWindow_le (params : PrivacyParams ℚ) (raised rest : ℕ) :
    changedCount (raisedWindow params 0 (raised + rest)) (raisedWindow params raised rest) ≤
      raised := by
  have hsplit : raisedWindow params 0 (raised + rest) =
      List.replicate raised (.plain params.lowest) ++ List.replicate rest (.plain params.lowest) := by
    rw [raisedWindow, List.replicate_zero, List.nil_append, List.replicate_add]
  rw [hsplit, raisedWindow]
  apply (changedCount_append_le (by simp) _).trans_eq
  rw [List.length_replicate]

/-- A window with raised chunks has the raised and the other chunks. -/
theorem length_raisedWindow (params : PrivacyParams ℚ) (raised rest : ℕ) :
    (raisedWindow params raised rest).length = raised + rest := by
  simp [raisedWindow]

/-- What a window with raised chunks adds up to. -/
theorem sum_raisedWindow (hprivacy : windowing.privacy = some params) (raised rest : ℕ) :
    ((raisedWindow params raised rest).map windowing.shapeMasked).sum =
      raised * params.highest + rest * windowing.shapeMasked (.plain params.lowest) := by
  simp [raisedWindow, shapeMasked_top hprivacy]

/-- A bound on the change of every mean covers the window in which some chunks are raised. -/
theorem raised_mul_spread_le {afterSplit : Bool} (hrendition : windowing.rendition = .masked)
    (hprivacy : windowing.privacy = some params) (hfunction : windowing.function = .mean)
    {raised rest : ℕ} (hcount : raised + rest = windowing.chunksPerWindow)
    (hpos : 0 < windowing.chunksPerWindow) {bound : ℚ}
    (hwithin : EachWindowWithin windowing afterSplit
      ((raisedWindow params 0 (raised + rest)).map .single)
      ((raisedWindow params raised rest).map .single) bound) :
    raised * maskedSpread windowing params / windowing.chunksPerWindow ≤ bound := by
  obtain ⟨windows, windows', hbefore, hafter, -, hall⟩ := hwithin
  have hlow : (raisedWindow params 0 (raised + rest)).length = windowing.chunksPerWindow := by
    rw [length_raisedWindow, Nat.zero_add, hcount]
  have hhigh : (raisedWindow params raised rest).length = windowing.chunksPerWindow := by
    rw [length_raisedWindow, hcount]
  rw [aggregate_masked hrendition hpos (by rw [hlow]), groupsOf_of_eq hpos hlow,
    Except.ok.injEq] at hbefore
  rw [aggregate_masked hrendition hpos (by rw [hhigh]), groupsOf_of_eq hpos hhigh,
    Except.ok.injEq] at hafter
  subst hbefore hafter
  have hmove := hall _ (List.mem_cons_self ..)
  dsimp only at hmove
  rw [hfunction, WindowFunction.reduce, WindowFunction.reduce, Exact.mean_eq, Exact.mean_eq,
    List.length_map, List.length_map, hlow, hhigh, sum_raisedWindow hprivacy,
    sum_raisedWindow hprivacy, ← sub_div] at hmove
  refine le_trans (le_of_eq ?_) ((neg_le_abs _).trans hmove)
  rw [maskedSpread, ← neg_div]
  push_cast
  ring

/-- A bound on the change of every mean holds for all sequences that differ in a number of chunks
exactly if it covers that number of chunks, or a full window, at opposite ends of the range. -/
theorem forall_eachWindowWithin_iff {afterSplit : Bool} (hrendition : windowing.rendition = .masked)
    (hprivacy : windowing.privacy = some params) (hfunction : windowing.function = .mean)
    (hpos : 0 < windowing.chunksPerWindow) {count : ℕ} {reach : ℚ} (hreach : count = reach)
    (bound : ℚ) :
    (∀ before after : List (ChunkValue ℚ), before.length = after.length →
        windowing.chunksPerWindow ∣ before.length → (changedCount before after : ℚ) ≤ reach →
          EachWindowWithin windowing afterSplit (before.map .single) (after.map .single) bound) ↔
      min (windowing.chunksPerWindow : ℚ) reach * maskedSpread windowing params /
        windowing.chunksPerWindow ≤ bound := by
  subst hreach
  constructor
  · intro hall
    obtain ⟨rest, hrest⟩ := Nat.exists_eq_add_of_le (min_le_left windowing.chunksPerWindow count)
    have hchanged := (changedCount_raisedWindow_le params (min windowing.chunksPerWindow count)
      rest).trans (min_le_right _ _)
    have hwithin := hall (raisedWindow params 0 (min windowing.chunksPerWindow count + rest))
      (raisedWindow params (min windowing.chunksPerWindow count) rest)
      (by rw [length_raisedWindow, length_raisedWindow, Nat.zero_add])
      (by rw [length_raisedWindow, Nat.zero_add, ← hrest]) (by exact_mod_cast hchanged)
    have hcovers := raised_mul_spread_le hrendition hprivacy hfunction hrest.symm hpos hwithin
    rwa [Nat.cast_min] at hcovers
  · intro hcovers before after hlength hdvd hchanged
    exact (eachWindowWithin_of_changed hrendition hprivacy hfunction hpos hlength hdvd
      hchanged).mono hcovers

/-- The sensitivity of a mean bounds the change of every window of the masked scene exactly if the
spread for every chunk of a window that can change, times the frames of a chunk, is within the range
for every chunk that can be touched. In any case the change is within the sensitivity times the
frames of a chunk. -/
theorem masked_means_change_le_sensitivity_iff (params : PrivacyParams ℚ)
    (hvalid : params.validate .masked = .ok ()) (persistence : ℚ) (hpersistence : 0 ≤ persistence)
    (framesPerChunk chunksPerWindow : ℕ) (hframes : 1 ≤ framesPerChunk)
    (hchunks : 1 ≤ chunksPerWindow) (smartAdjust afterSplit : Bool) :
    let windowing : Windowing ℚ := ⟨chunksPerWindow, .masked, some params, smartAdjust, .mean⟩
    ∃ touched bound, persistenceChunks persistence framesPerChunk = .ok touched ∧
      sensitivity params.lower params.upper persistence params.segments framesPerChunk
        chunksPerWindow .mean = .ok bound ∧
      ((∀ before after : List (ChunkValue ℚ), before.length = after.length →
          chunksPerWindow ∣ before.length →
            (changedCount before after : ℚ) ≤ params.segments * touched →
              EachWindowWithin windowing afterSplit (before.map .single) (after.map .single)
                bound) ↔
        min (chunksPerWindow : ℚ) (params.segments * touched) * maskedSpread windowing params *
            framesPerChunk ≤
          (params.highest - params.lowest) * (params.segments * touched)) ∧
      ∀ before after : List (ChunkValue ℚ), before.length = after.length →
        chunksPerWindow ∣ before.length →
          (changedCount before after : ℚ) ≤ params.segments * touched →
            EachWindowWithin windowing afterSplit (before.map .single) (after.map .single)
              (framesPerChunk * bound) := by
  intro windowing
  obtain ⟨haccepted, -⟩ := PrivacyParams.accepted_of_validate hvalid
  have hframes' : (0 : ℚ) < framesPerChunk := by exact_mod_cast hframes
  have hchunks' : (0 : ℚ) < chunksPerWindow := by exact_mod_cast hchunks
  have hrendition : windowing.rendition = .masked := rfl
  have hprivacy : windowing.privacy = some params := rfl
  have hfunction : windowing.function = .mean := rfl
  refine ⟨_, _, persistenceChunks_eq_ok hpersistence hframes,
    sensitivity_mean_eq_ok params.lower params.upper haccepted.segments_pos hpersistence hframes
      hchunks, ?_, ?_⟩
  · rw [forall_eachWindowWithin_iff hrendition hprivacy hfunction hchunks (Nat.cast_mul _ _),
      Nat.cast_mul, div_le_div_iff₀ hchunks' (mul_pos hframes' hchunks'), ← mul_assoc,
      mul_le_mul_iff_left₀ hchunks']
    rfl
  · intro before after hlength hdvd hchanged
    apply (eachWindowWithin_of_changed hrendition hprivacy hfunction hchunks hlength hdvd
      hchanged).mono
    rw [Nat.cast_mul, ← mul_div_assoc, mul_div_mul_left _ _ hframes'.ne']
    apply div_le_div_of_nonneg_right _ hchunks'.le
    calc
      min (chunksPerWindow : ℚ) (params.segments * touchedChunks persistence framesPerChunk) *
            maskedSpread windowing params ≤
          params.segments * touchedChunks persistence framesPerChunk *
            (params.highest - params.lowest) :=
        mul_le_mul (min_le_right _ _) (maskedSpread_le hprivacy haccepted)
          (maskedSpread_nonneg hprivacy) (by positivity)
      _ = (params.upper.highest - params.lower.lowest) *
            (params.segments * touchedChunks persistence framesPerChunk) := mul_comm _ _

/-- With two frames to a chunk and one chunk to a window, the sensitivity of a mean is half of what
one individual can change, and the change is within the sensitivity times the two frames. -/
theorem masked_means_change_le_sensitivity_iff_two_frames :
    let params : PrivacyParams ℚ := ⟨1, .scene 0, .scene 10, .sum, none, 1⟩
    let windowing : Windowing ℚ := ⟨1, .masked, some params, false, .mean⟩
    (params.validate .masked = .ok () ∧ (0 : ℚ) ≤ 0 ∧ 1 ≤ 2 ∧ 1 ≤ 1) ∧
      persistenceChunks (0 : ℚ) 2 = .ok 1 ∧
      sensitivity params.lower params.upper 0 params.segments 2 1 .mean = .ok 5 ∧
      (¬∀ before after : List (ChunkValue ℚ), before.length = after.length → 1 ∣ before.length →
        (changedCount before after : ℚ) ≤ 1 →
          EachWindowWithin windowing true (before.map .single) (after.map .single) 5) ∧
      EachWindowWithin windowing true [.single (.plain 0)] [.single (.plain 10)] (2 * 5) := by
  intro params windowing
  have hvalid : params.validate .masked = .ok () := by rfl
  have htouched : persistenceChunks (0 : ℚ) 2 = .ok 1 := by decide +kernel
  have hbound : sensitivity params.lower params.upper 0 params.segments 2 1 .mean = .ok (5 : ℚ) := by
    decide +kernel
  obtain ⟨touched, bound, htouched', hbound', hiff, hframes⟩ :=
    masked_means_change_le_sensitivity_iff params hvalid 0 le_rfl 2 1 one_le_two le_rfl false true
  rw [htouched, Except.ok.injEq] at htouched'
  rw [hbound, Except.ok.injEq] at hbound'
  subst htouched' hbound'
  have hspread : maskedSpread windowing params = 10 := by decide +kernel
  refine ⟨⟨hvalid, le_rfl, one_le_two, le_rfl⟩, htouched, hbound, ?_, ?_⟩
  · intro hall
    have hcovers := hiff.mp (by simpa [params] using hall)
    rw [hspread] at hcovers
    norm_num [params, PrivacyParams.highest, PrivacyParams.lowest, Bound.highest,
      Bound.lowest] at hcovers
  · exact hframes [.plain 0] [.plain 10] rfl (one_dvd _) (by decide +kernel)

/-- A window of one chunk of two frames moves from 0 to 10 where the sensitivity of its mean is 5. -/
theorem mean_exceeds_sensitivity :
    let params : PrivacyParams ℚ := ⟨1, .scene 0, .scene 10, .sum, none, 1⟩
    let windowing : Windowing ℚ := ⟨1, .masked, some params, false, .mean⟩
    params.validate .masked = .ok () ∧ persistenceChunks (0 : ℚ) 2 = .ok 1 ∧
      changedCount [ChunkValue.plain (0 : ℚ)] [.plain 10] = 1 ∧
      windowing.aggregate [.single (.plain 0)] true = .ok [0] ∧
      windowing.aggregate [.single (.plain 10)] true = .ok [10] ∧
      sensitivity params.lower params.upper 0 params.segments 2 1 .mean = .ok 5 := by
  decide +kernel

end PrivateFootage
