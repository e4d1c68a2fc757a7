import Mathlib
import PrivateFootage.Proofs.Decimal.Double
import PrivateFootage.Proofs.Track.Thresholds

/-!
# What the descriptor of an aggregator says

A descriptor is read in its pieces between low lines: a name, four thresholds in two places, two whole
numbers and, unless it is the default, a distance in as many digits as it takes. So it tells whole numbers
and distances, but thresholds only as far as their two places go. Aggregators with one descriptor agree on
every chunk in which no measured value lies between their thresholds, and on every chunk at all if their
thresholds are numbers of two places. Between other thresholds a value may fall, and then they differ.
-/

namespace PrivateFootage

/-! ### Equal results -/

section Results

variable {α : Type} [Analytic α] {filter other : Filter α} {settings settings' : TrackerSettings α}
  {chunk : Chunk α}

/-- No value that is measured in a chunk lies between the thresholds of two filters or those of two
trackers. -/
structure Indistinct (filter other : Filter α) (settings settings' : TrackerSettings α) (chunk : Chunk α) :
    Prop where
  confidence_iff : ∀ frame ∈ chunk, ∀ row ∈ frame,
    (filter.confidenceThreshold ≤ row.confidence ↔ other.confidenceThreshold ≤ row.confidence)
  coverage_iff : ∀ frame ∈ chunk, ∀ above ∈ frame, ∀ below ∈ frame,
    (Box.coverage above.box below.box ≤ filter.maxOverlap ↔
      Box.coverage above.box below.box ≤ other.maxOverlap)
  box_iff : ∀ earlier ∈ (chunk.map filter.apply).flatten, ∀ later ∈ (chunk.map filter.apply).flatten,
    (settings.maxBoxDistance < 1 - Box.overlap earlier.box later.box ↔
      settings'.maxBoxDistance < 1 - Box.overlap earlier.box later.box)
  feature_iff : ∀ earlier ∈ (chunk.map filter.apply).flatten, ∀ later ∈ (chunk.map filter.apply).flatten,
    (settings.maxFeatureDistance < featureDistance earlier.feature later.feature ↔
      settings'.maxFeatureDistance < featureDistance earlier.feature later.feature)

/-- The same detections pass in every frame. -/
theorem Indistinct.map_apply_eq (hchunk : Indistinct filter other settings settings' chunk) :
    chunk.map filter.apply = chunk.map other.apply :=
  List.map_congr_left fun frame hframe =>
    Filter.apply_congr (hchunk.confidence_iff frame hframe) (hchunk.coverage_iff frame hframe)

/-- The same objects are seen in every frame. -/
theorem Indistinct.sightings_eq (hchunk : Indistinct filter other settings settings' chunk)
    (hage : settings.maxAge = settings'.maxAge) (hhits : settings.hitsToConfirm = settings'.hitsToConfirm) :
    Tracker.sightings settings (chunk.map filter.apply) =
      Tracker.sightings settings' (chunk.map other.apply) := by
  rw [← hchunk.map_apply_eq]
  exact Tracker.sightings_congr ⟨hage, hhits, hchunk.box_iff, hchunk.feature_iff⟩

end Results

namespace Aggregator

/-! ### The pieces of a descriptor -/

variable {filter other : Filter Float} {settings settings' : TrackerSettings Float}

/-- The pieces of a descriptor for a filter and a tracker. -/
def settingPieces (filter : Filter Float) (settings : TrackerSettings Float) : List (List Char) :=
  ["CF:".toList ++ (Scalar.fixedText 2 filter.confidenceThreshold).toList,
    "NMS:".toList ++ (Scalar.fixedText 2 filter.maxOverlap).toList,
    "CO:".toList ++ (Scalar.fixedText 2 settings.maxFeatureDistance).toList,
    "IO:".toList ++ (Scalar.fixedText 2 settings.maxBoxDistance).toList,
    "MA:".toList ++ Decimal.digitChars settings.maxAge,
    "NI:".toList ++ Decimal.digitChars settings.hitsToConfirm]

/-- There are no low lines in the pieces for a filter and a tracker. -/
theorem notMem_settingPieces (filter : Filter Float) (settings : TrackerSettings Float) :
    ∀ piece ∈ settingPieces filter settings, '_' ∉ piece := by
  have hfixed : ∀ value : Float, '_' ∉ (Scalar.fixedText 2 value).toList :=
    fun value => Binary.notMem_fixedText 2 (Binary.ofFloat value)
  have hdigits : ∀ value : ℕ, '_' ∉ Decimal.digitChars value :=
    fun value => Decimal.notMem_digitChars (by decide) value
  simp [settingPieces, hfixed, hdigits]

/-- A name, a filter and a tracker are written as their pieces with low lines between them. -/
theorem toList_settings (name : String) (filter : Filter Float) (settings : TrackerSettings Float) :
    (s!"{name}_{filter.descriptor}_{settings.descriptor}").toList =
      ['_'].intercalate (name.toList :: settingPieces filter settings) := by
  simp [settingPieces, List.intercalate, Filter.descriptor, TrackerSettings.descriptor, toString,
    Nat.repr_eq_ofList_toDigits, Decimal.digitChars]

/-- The pieces are found again. -/
theorem split_settings {name : String} (hname : '_' ∉ name.toList) (filter : Filter Float)
    (settings : TrackerSettings Float) :
    Text.split '_' (s!"{name}_{filter.descriptor}_{settings.descriptor}").toList =
      name.toList :: settingPieces filter settings := by
  rw [toList_settings]
  apply Text.split_intercalate (List.cons_ne_nil _ _)
  exact List.forall_mem_cons.mpr ⟨hname, notMem_settingPieces filter settings⟩

/-- Filters and trackers that a descriptor does not tell apart: their thresholds have the same two places
and their whole numbers are the same. -/
structure SameText (filter other : Filter Float) (settings settings' : TrackerSettings Float) : Prop where
  confidence : Scalar.fixedText 2 filter.confidenceThreshold = Scalar.fixedText 2 other.confidenceThreshold
  overlap : Scalar.fixedText 2 filter.maxOverlap = Scalar.fixedText 2 other.maxOverlap
  feature : Scalar.fixedText 2 settings.maxFeatureDistance = Scalar.fixedText 2 settings'.maxFeatureDistance
  box : Scalar.fixedText 2 settings.maxBoxDistance = Scalar.fixedText 2 settings'.maxBoxDistance
  maxAge : settings.maxAge = settings'.maxAge
  hitsToConfirm : settings.hitsToConfirm = settings'.hitsToConfirm

/-- The pieces tell the texts of the thresholds and the whole numbers. -/
theorem settingPieces_eq_iff :
    settingPieces filter settings = settingPieces other settings' ↔
      SameText filter other settings settings' := by
  constructor
  · intro hsame
    simp only [settingPieces, List.cons.injEq, List.append_cancel_left_eq, and_true] at hsame
    obtain ⟨hconfidence, hoverlap, hfeature, hbox, hage, hhits⟩ := hsame
    exact ⟨String.toList_injective hconfidence, String.toList_injective hoverlap,
      String.toList_injective hfeature, String.toList_injective hbox,
      Decimal.digitChars_injective hage, Decimal.digitChars_injective hhits⟩
  · rintro ⟨hconfidence, hoverlap, hfeature, hbox, hage, hhits⟩
    rw [settingPieces, settingPieces, hconfidence, hoverlap, hfeature, hbox, hage, hhits]

/-- The pieces of the descriptor of an aggregator that counts objects. -/
theorem split_count (filter : Filter Float) (settings : TrackerSettings Float) :
    Text.split '_' (count filter settings).descriptor.toList =
      "COUNT".toList :: settingPieces filter settings := by
  have hname : '_' ∉ "COUNT".toList := by decide
  exact split_settings hname filter settings

/-- Which aggregators that count objects have one descriptor. -/
theorem count_descriptor_eq_iff :
    (count filter settings).descriptor = (count other settings').descriptor ↔
      SameText filter other settings settings' := by
  rw [← String.toList_inj, ← (Text.split_injective '_').eq_iff, split_count, split_count,
    List.cons_inj_right, settingPieces_eq_iff]

/-! ### Distances -/

variable {minDistance minDistance' : Float}

/-- The pieces of a descriptor for a distance. -/
def distancePieces (minDistance : Float) : List (List Char) :=
  if minDistance == defaultMinDistance then [] else ["MD:".toList ++ (Scalar.plainText minDistance).toList]

/-- No double but itself is equal to the default distance. -/
theorem beq_defaultMinDistance_iff :
    (minDistance == defaultMinDistance) = true ↔ minDistance = defaultMinDistance := by
  have hnumber : (defaultMinDistance : Float) ≠ Float.nan := by decide +kernel
  have hzero : (defaultMinDistance : Float) ≠ 0 ∧ (defaultMinDistance : Float) ≠ -0 := by decide +kernel
  refine Iff.trans Float.beq_iff_ne_nan_and_eq ⟨?_, ?_⟩
  · rintro ⟨-, -, hsame | ⟨-, hnegative⟩ | ⟨-, hpositive⟩⟩
    · exact hsame
    · exact absurd hnegative hzero.2
    · exact absurd hpositive hzero.1
  · rintro rfl
    exact ⟨hnumber, hnumber, .inl rfl⟩

/-- The pieces for a distance tell the distance. -/
theorem distancePieces_injective : Function.Injective distancePieces := by
  intro first second hsame
  unfold distancePieces at hsame
  split_ifs at hsame with hfirst hsecond
  · rw [beq_defaultMinDistance_iff] at hfirst hsecond
    rw [hfirst, hsecond]
  · simp only [List.cons.injEq, List.append_cancel_left_eq, and_true] at hsame
    exact Binary.plainText_injective (String.toList_injective hsame)

/-- The pieces of the descriptor of an aggregator that counts rising objects. -/
theorem split_upward (filter : Filter Float) (settings : TrackerSettings Float) (minDistance : Float) :
    Text.split '_' (upward filter settings minDistance).descriptor.toList =
      "UPWARD".toList :: settingPieces filter settings ++ distancePieces minDistance := by
  have hname : '_' ∉ "UPWARD".toList := by decide
  have hbase := split_settings hname filter settings
  unfold upward distancePieces
  dsimp only
  split_ifs
  · rw [List.append_nil]
    exact hbase
  · have hdistance : '_' ∉ "MD:".toList ++ (Scalar.plainText minDistance).toList := by
      rw [List.mem_append, not_or]
      exact ⟨by decide, Binary.notMem_plainText (Binary.ofFloat minDistance)⟩
    have hmark : "_MD:".toList = '_' :: "MD:".toList := rfl
    rw [String.toList_append, String.toList_append, List.append_assoc, hmark, List.cons_append,
      Text.split_append, Text.split_of_notMem hdistance]
    exact congrArg (· ++ _) hbase

/-- Which aggregators that count rising objects have one descriptor. -/
theorem upward_descriptor_eq_iff :
    (upward filter settings minDistance).descriptor = (upward other settings' minDistance').descriptor ↔
      SameText filter other settings settings' ∧ minDistance = minDistance' := by
  rw [← String.toList_inj, ← (Text.split_injective '_').eq_iff, split_upward, split_upward,
    ← settingPieces_eq_iff, ← distancePieces_injective.eq_iff]
  constructor
  · intro hsame
    obtain ⟨hsettings, hdistance⟩ := List.append_inj hsame rfl
    exact ⟨(List.cons.inj hsettings).2, hdistance⟩
  · rintro ⟨hsettings, hdistance⟩
    rw [hsettings, hdistance]

/-! ### Aggregators with one descriptor -/

/-- A threshold that is read back from its two places. -/
def IsTwoPlaces (threshold : Float) : Prop :=
  ∃ written, Written.read (Scalar.fixedText 2 threshold).toList = .ok written ∧
    Scalar.ofWritten written = threshold

/-- The thresholds of a filter and of a tracker are read back from their two places. -/
structure HasTwoPlaces (filter : Filter Float) (settings : TrackerSettings Float) : Prop where
  confidence : IsTwoPlaces filter.confidenceThreshold
  overlap : IsTwoPlaces filter.maxOverlap
  feature : IsTwoPlaces settings.maxFeatureDistance
  box : IsTwoPlaces settings.maxBoxDistance

/-- Thresholds of two places are told apart by them. -/
theorem IsTwoPlaces.eq {first second : Float} (hfirst : IsTwoPlaces first) (hsecond : IsTwoPlaces second)
    (hsame : (Scalar.fixedText 2 first : String) = Scalar.fixedText 2 second) : first = second := by
  obtain ⟨written, hread, rfl⟩ := hfirst
  obtain ⟨written', hread', rfl⟩ := hsecond
  rw [hsame, hread'] at hread
  cases hread
  rfl

/-- Filters and trackers with thresholds of two places are told apart by descriptors. -/
theorem SameText.eq (hsame : SameText filter other settings settings')
    (hplaces : HasTwoPlaces filter settings) (hplaces' : HasTwoPlaces other settings') :
    filter = other ∧ settings = settings' := by
  obtain ⟨confidence, overlap⟩ := filter
  obtain ⟨feature, box, maxAge, hitsToConfirm⟩ := settings
  constructor
  · rw [Filter.mk.injEq]
    exact ⟨hplaces.confidence.eq hplaces'.confidence hsame.confidence,
      hplaces.overlap.eq hplaces'.overlap hsame.overlap⟩
  · rw [TrackerSettings.mk.injEq]
    exact ⟨hplaces.feature.eq hplaces'.feature hsame.feature, hplaces.box.eq hplaces'.box hsame.box,
      hsame.maxAge, hsame.hitsToConfirm⟩

/-- Two filters and trackers with the same texts count the same on a chunk in which no measured value lies
between their thresholds. -/
theorem SameText.invoke_eq (hsame : SameText filter other settings settings') {chunk : Chunk Float}
    (hchunk : Indistinct filter other settings settings' chunk) (minDistance : Float) :
    (count filter settings).invoke chunk = (count other settings').invoke chunk ∧
      (upward filter settings minDistance).invoke chunk = (upward other settings' minDistance).invoke chunk := by
  have hsightings := hchunk.sightings_eq hsame.maxAge hsame.hitsToConfirm
  constructor
  · change Except.ok (countTracks filter settings chunk) = .ok (countTracks other settings' chunk)
    unfold countTracks
    dsimp only
    rw [hsightings, hchunk.map_apply_eq]
  · change Except.ok (countRisen filter settings minDistance chunk) =
      .ok (countRisen other settings' minDistance chunk)
    unfold countRisen
    dsimp only
    rw [hsightings]

/-- A row at the origin with a confidence. -/
def rowOf (confidence : Float) : Row Float := ⟨0, 0, ⟨0, 0, 10, 10⟩, confidence, []⟩

/-- Whether a single row passes. -/
theorem apply_rowOf (filter : Filter Float) (confidence : Float) :
    filter.apply [rowOf confidence] =
      if filter.confidenceThreshold ≤ confidence then [(rowOf confidence).detection] else [] := by
  have hrow : (rowOf confidence).confidence = confidence := rfl
  split_ifs with hpasses
  · simp [Filter.apply, suppress, ranked, keepUncovered, hrow, hpasses]
  · simp [Filter.apply, suppress, ranked, hrow, hpasses]

/-- A row whose confidence reaches one threshold and not another is counted at the ends of a chunk by one
filter only. -/
theorem count_rowOf_ne {confidence : Float} (hpasses : filter.confidenceThreshold ≤ confidence)
    (hfails : ¬other.confidenceThreshold ≤ confidence) :
    (count filter settings).invoke [[rowOf confidence]] ≠ (count other settings').invoke [[rowOf confidence]] := by
  intro hsame
  have hvalues : countTracks filter settings [[rowOf confidence]] =
      countTracks other settings' [[rowOf confidence]] := Except.ok.inj hsame
  unfold countTracks at hvalues
  simp only [List.map_cons, List.map_nil] at hvalues
  rw [apply_rowOf, apply_rowOf, if_pos hpasses, if_neg hfails] at hvalues
  injection hvalues with hseen hcorrection
  have hends : (Scalar.ofNat (1 + 1) * Scalar.half : Float) ≠ Scalar.ofNat (0 + 0) * Scalar.half := by
    decide +kernel
  exact hends hcorrection

/-- What equal descriptors mean. They are those of aggregators whose thresholds have the same two places,
with the same whole numbers and the same distance. Such aggregators agree on every chunk in which no
measured value lies between their thresholds, and on all chunks if their thresholds have two places only.
They do not agree on a row whose confidence lies between their thresholds. -/
theorem descriptor_eq_iff_and_invoke_eq (filter other : Filter Float)
    (settings settings' : TrackerSettings Float) (minDistance minDistance' : Float) :
    ((count filter settings).descriptor = (count other settings').descriptor ↔
      SameText filter other settings settings') ∧
    ((upward filter settings minDistance).descriptor = (upward other settings' minDistance').descriptor ↔
      SameText filter other settings settings' ∧ minDistance = minDistance') ∧
    (∀ chunk, (Indistinct filter other settings settings' chunk ∨
        HasTwoPlaces filter settings ∧ HasTwoPlaces other settings') →
      ((count filter settings).descriptor = (count other settings').descriptor →
        (count filter settings).invoke chunk = (count other settings').invoke chunk) ∧
      ((upward filter settings minDistance).descriptor = (upward other settings' minDistance').descriptor →
        (upward filter settings minDistance).invoke chunk =
          (upward other settings' minDistance').invoke chunk)) ∧
    ∀ confidence, filter.confidenceThreshold ≤ confidence → ¬other.confidenceThreshold ≤ confidence →
      (count filter settings).invoke [[rowOf confidence]] ≠
        (count other settings').invoke [[rowOf confidence]] := by
  refine ⟨count_descriptor_eq_iff, upward_descriptor_eq_iff, fun chunk hchunk => ?_,
    fun confidence => count_rowOf_ne⟩
  have hagree : SameText filter other settings settings' →
      (count filter settings).invoke chunk = (count other settings').invoke chunk ∧
        (upward filter settings minDistance).invoke chunk =
          (upward other settings' minDistance).invoke chunk := by
    intro hsame
    rcases hchunk with hindistinct | ⟨hplaces, hplaces'⟩
    · exact hsame.invoke_eq hindistinct minDistance
    · obtain ⟨rfl, rfl⟩ := hsame.eq hplaces hplaces'
      exact ⟨rfl, rfl⟩
  refine ⟨fun hdescriptor => (hagree (count_descriptor_eq_iff.mp hdescriptor)).1, fun hdescriptor => ?_⟩
  obtain ⟨hsame, rfl⟩ := upward_descriptor_eq_iff.mp hdescriptor
  exact (hagree hsame).2

/-- A threshold that has three places. -/
def threePlaces : Filter Float := ⟨0.804, 1⟩

/-- The standard thresholds have two places. A threshold that rounds to one of them gives the same result
on a chunk without a confidence between the two. -/
theorem descriptor_eq_iff_and_invoke_eq_standard :
    HasTwoPlaces .standard .standard ∧
    Indistinct .standard threePlaces .standard .standard [[rowOf 0.9, rowOf 0.7]] ∧
    (count .standard .standard).descriptor = (count threePlaces .standard).descriptor ∧
    (count .standard .standard).invoke [[rowOf 0.9, rowOf 0.7]] =
      (count threePlaces .standard).invoke [[rowOf 0.9, rowOf 0.7]] := by
  have hplaces : HasTwoPlaces .standard .standard :=
    ⟨⟨.decimal ⟨false, 80, -2⟩, by decide +kernel⟩, ⟨.decimal ⟨false, 100, -2⟩, by decide +kernel⟩,
      ⟨.decimal ⟨false, 50, -2⟩, by decide +kernel⟩, ⟨.decimal ⟨false, 70, -2⟩, by decide +kernel⟩⟩
  have hchunk : Indistinct .standard threePlaces .standard .standard [[rowOf 0.9, rowOf 0.7]] :=
    ⟨by decide +kernel, fun _ _ _ _ _ _ => Iff.rfl, fun _ _ _ _ => Iff.rfl, fun _ _ _ _ => Iff.rfl⟩
  have hdescriptor : (count .standard .standard).descriptor = (count threePlaces .standard).descriptor := by
    decide +kernel
  obtain ⟨-, -, hagree, -⟩ := descriptor_eq_iff_and_invoke_eq .standard threePlaces .standard .standard 0 0
  exact ⟨hplaces, hchunk, hdescriptor, (hagree _ (.inl hchunk)).1 hdescriptor⟩

/-- The two thresholds have one descriptor and differ on a chunk with a confidence between them. -/
theorem descriptor_hides_third_place :
    (count .standard .standard).descriptor = (count threePlaces .standard).descriptor ∧
    (count .standard .standard).invoke [[rowOf 0.802]] = .ok (.corrected 0 1) ∧
    (count threePlaces .standard).invoke [[rowOf 0.802]] = .ok (.corrected 0 0) := by
  have hstandard : countTracks .standard .standard [[rowOf 0.802]] = .corrected 0 1 := by decide +kernel
  have hthree : countTracks threePlaces .standard [[rowOf 0.802]] = .corrected 0 0 := by decide +kernel
  exact ⟨by decide +kernel, congrArg Except.ok hstandard, congrArg Except.ok hthree⟩

end Aggregator

end PrivateFootage
