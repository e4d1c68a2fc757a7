import Mathlib
import PrivateFootage.Proofs.Decimal.Layout

/-!
# The shortest decimal of a double stands for that double

The real numbers that round to a double form an interval, and the intervals of different doubles have
nothing in common: neighbours share at most an end, which belongs to the one with the even significand.
The search for the shortest decimal ends in the interval. It tries ever finer grids, and the last of
them is finer than half the gap to the next double, so that it cannot miss. Hence no two doubles have the
same text in messages.
-/

namespace PrivateFootage.Binary

variable {significand : ℕ} {exponent : ℤ} {narrowBelow : Bool} {tie : Tie}

/-! ### Grids -/

/-- A power with a whole exponent, as a quotient of two powers with natural exponents. -/
theorem pow_toNat {base : ℚ} (hbase : base ≠ 0) (power : ℤ) :
    base ^ power.toNat = base ^ power * base ^ (-power).toNat := by
  obtain ⟨count, rfl | rfl⟩ := power.eq_nat_or_neg
  · simp
  · simp [hbase]

/-- The denominator of a quotient by a grid. -/
def gridUnit (binary decimal : ℤ) : ℕ := (gridRatio 0 binary decimal).2

/-- Denominators are positive. -/
theorem gridUnit_pos (binary decimal : ℤ) : 0 < gridUnit binary decimal := by
  simp [gridUnit, gridRatio]

/-- The numerator of a quotient by a grid. -/
theorem cast_gridRatio (a : ℕ) (binary decimal : ℤ) :
    ((gridRatio a binary decimal).1 : ℚ) = a * 2 ^ binary / 10 ^ decimal * gridUnit binary decimal := by
  have hten := pow_toNat (show (10 : ℚ) ≠ 0 by norm_num) decimal
  have htwo := pow_toNat (show (2 : ℚ) ≠ 0 by norm_num) binary
  simp only [gridUnit, gridRatio, Nat.pow_eq, Nat.cast_mul, Nat.cast_pow, Nat.cast_ofNat]
  rw [htwo, hten]
  field_simp

section Multiples

variable (a units : ℕ) (binary decimal : ℤ)

/-- Which multiples of a grid lie above a number. -/
theorem gridRatio_lt_iff :
    (gridRatio a binary decimal).1 < units * gridUnit binary decimal ↔
      (a : ℚ) * 2 ^ binary < units * 10 ^ decimal := by
  have hunit : (0 : ℚ) < gridUnit binary decimal := Nat.cast_pos.mpr (gridUnit_pos binary decimal)
  rw [← Nat.cast_lt (α := ℚ), Nat.cast_mul, cast_gridRatio, mul_lt_mul_iff_of_pos_right hunit,
    div_lt_iff₀ (by positivity)]

/-- Which multiples of a grid lie below a number. -/
theorem lt_gridRatio_iff :
    units * gridUnit binary decimal < (gridRatio a binary decimal).1 ↔
      units * (10 : ℚ) ^ decimal < a * 2 ^ binary := by
  have hunit : (0 : ℚ) < gridUnit binary decimal := Nat.cast_pos.mpr (gridUnit_pos binary decimal)
  rw [← Nat.cast_lt (α := ℚ), Nat.cast_mul, cast_gridRatio, mul_lt_mul_iff_of_pos_right hunit,
    lt_div_iff₀ (by positivity)]

/-- Which multiple of a grid a number is. -/
theorem gridRatio_eq_iff :
    (gridRatio a binary decimal).1 = units * gridUnit binary decimal ↔
      (a : ℚ) * 2 ^ binary = units * 10 ^ decimal := by
  have hunit : (gridUnit binary decimal : ℚ) ≠ 0 := Nat.cast_ne_zero.mpr (gridUnit_pos binary decimal).ne'
  rw [← Nat.cast_inj (R := ℚ), Nat.cast_mul, cast_gridRatio, mul_left_inj' hunit,
    div_eq_iff (by positivity)]

end Multiples

/-! ### The interval of a double -/

/-- The lower end of the interval of a double, in quarters of its unit. -/
def lowQuarters (significand : ℕ) (narrowBelow : Bool) : ℕ :=
  4 * significand - (if narrowBelow then 1 else 2)

/-- A number rounds to `significand · 2 ^ exponent`. -/
structure Rounds (significand : ℕ) (exponent : ℤ) (narrowBelow : Bool) (value : ℚ) : Prop where
  lower : (lowQuarters significand narrowBelow : ℚ) * 2 ^ (exponent - 2) < value ∨
    significand % 2 = 0 ∧ (lowQuarters significand narrowBelow : ℚ) * 2 ^ (exponent - 2) = value
  upper : value < ((4 * significand + 2 : ℕ) : ℚ) * 2 ^ (exponent - 2) ∨
    significand % 2 = 0 ∧ value = ((4 * significand + 2 : ℕ) : ℚ) * 2 ^ (exponent - 2)

/-- The number of grid units next below a double, or equal to it. -/
def unitsBelow (significand : ℕ) (exponent grid : ℤ) : ℕ :=
  (gridRatio (4 * significand) (exponent - 2) grid).1 / gridUnit (exponent - 2) grid

section Neighbours

variable (significand : ℕ) (exponent grid : ℤ)

/-- The neighbour below is not above the double. -/
theorem unitsBelow_le :
    unitsBelow significand exponent grid * (10 : ℚ) ^ grid ≤
      (4 * significand : ℕ) * 2 ^ (exponent - 2) := by
  rw [← not_lt, ← gridRatio_lt_iff, not_lt]
  exact Nat.div_mul_le_self _ _

/-- The next neighbour is above the double. -/
theorem lt_unitsBelow_succ :
    ((4 * significand : ℕ) : ℚ) * 2 ^ (exponent - 2) <
      (unitsBelow significand exponent grid + 1 : ℕ) * 10 ^ grid := by
  rw [← gridRatio_lt_iff, add_mul, one_mul]
  exact Nat.lt_div_mul_add (gridUnit_pos _ _)

end Neighbours

variable {grid : ℤ}

/-- A neighbour below that is not under the lower end rounds to the double. -/
theorem rounds_unitsBelow
    (hlower : (gridRatio (lowQuarters significand narrowBelow) (exponent - 2) grid).1 <
        unitsBelow significand exponent grid * gridUnit (exponent - 2) grid ∨
      significand % 2 = 0 ∧ (gridRatio (lowQuarters significand narrowBelow) (exponent - 2) grid).1 =
        unitsBelow significand exponent grid * gridUnit (exponent - 2) grid) :
    Rounds significand exponent narrowBelow (unitsBelow significand exponent grid * 10 ^ grid) := by
  rw [gridRatio_lt_iff, gridRatio_eq_iff] at hlower
  have hhigh : ((4 * significand : ℕ) : ℚ) < (4 * significand + 2 : ℕ) := Nat.cast_lt.mpr (by omega)
  exact ⟨hlower, .inl ((unitsBelow_le significand exponent grid).trans_lt
    (mul_lt_mul_of_pos_right hhigh (by positivity)))⟩

/-- A neighbour above that is not over the upper end rounds to the double. -/
theorem rounds_unitsBelow_succ
    (hupper : (unitsBelow significand exponent grid + 1) * gridUnit (exponent - 2) grid <
        (gridRatio (4 * significand + 2) (exponent - 2) grid).1 ∨
      significand % 2 = 0 ∧ (unitsBelow significand exponent grid + 1) * gridUnit (exponent - 2) grid =
        (gridRatio (4 * significand + 2) (exponent - 2) grid).1) :
    Rounds significand exponent narrowBelow ((unitsBelow significand exponent grid + 1 : ℕ) * 10 ^ grid) := by
  have hlow : (lowQuarters significand narrowBelow : ℚ) ≤ (4 * significand : ℕ) :=
    Nat.cast_le.mpr (Nat.sub_le _ _)
  constructor
  · exact .inl ((mul_le_mul_of_nonneg_right hlow (by positivity)).trans_lt
      (lt_unitsBelow_succ significand exponent grid))
  · refine hupper.imp (lt_gridRatio_iff _ _ _ _).mp (And.imp_right fun hend => ?_)
    exact ((gridRatio_eq_iff _ _ _ _).mp hend.symm).symm

/-- A grid whose neighbour above is over the upper end is too coarse. -/
theorem pow_le_of_not_hit
    (hover : ¬((unitsBelow significand exponent grid + 1) * gridUnit (exponent - 2) grid <
        (gridRatio (4 * significand + 2) (exponent - 2) grid).1)) :
    (2 : ℚ) ^ (exponent - 1) ≤ 10 ^ grid := by
  rw [lt_gridRatio_iff, not_lt] at hover
  have hbelow := unitsBelow_le significand exponent grid
  have hhalf : (2 : ℚ) ^ (exponent - 1) = 2 * 2 ^ (exponent - 2) := by
    rw [← zpow_one_add₀ two_ne_zero]
    congr 1
    ring
  rw [hhalf]
  push_cast at hover hbelow
  linarith

/-- What one grid comes to: a multiple of it rounds to the double, or it is too coarse. -/
theorem searchGrid_cases (fuel : ℕ) (grid : ℤ) :
    (∃ units, searchGrid tie significand exponent narrowBelow (fuel + 1) grid = (units, grid) ∧
      Rounds significand exponent narrowBelow (units * 10 ^ grid)) ∨
    (searchGrid tie significand exponent narrowBelow (fuel + 1) grid =
        searchGrid tie significand exponent narrowBelow fuel (grid - 1) ∧
      (2 : ℚ) ^ (exponent - 1) ≤ 10 ^ grid) := by
  rw [searchGrid, ← lowQuarters]
  dsimp only
  split_ifs with hboth hup hbelow habove
  · exact .inl ⟨_, rfl, rounds_unitsBelow_succ hboth.2⟩
  · exact .inl ⟨_, rfl, rounds_unitsBelow hboth.1.2⟩
  · exact .inl ⟨_, rfl, rounds_unitsBelow hbelow.2⟩
  · exact .inl ⟨_, rfl, rounds_unitsBelow_succ habove⟩
  · exact .inr ⟨rfl, pow_le_of_not_hit fun h => habove (.inl h)⟩

/-- The search finds a number that rounds to the double if its last grid is fine enough. -/
theorem rounds_searchGrid {fuel : ℕ} (hfine : (10 : ℚ) ^ (grid - fuel) < 2 ^ (exponent - 1)) :
    Rounds significand exponent narrowBelow
      ((searchGrid tie significand exponent narrowBelow (fuel + 1) grid).1 *
        10 ^ (searchGrid tie significand exponent narrowBelow (fuel + 1) grid).2) := by
  induction fuel generalizing grid with
  | zero =>
    obtain ⟨units, hfound, hrounds⟩ := (searchGrid_cases 0 grid).resolve_right fun hcoarse => by
      rw [Nat.cast_zero, sub_zero] at hfine
      exact absurd hfine (not_lt.mpr hcoarse.2)
    rw [hfound]
    exact hrounds
  | succ fuel ih =>
    rcases searchGrid_cases (fuel + 1) grid with ⟨units, hfound, hrounds⟩ | ⟨hnext, -⟩
    · rw [hfound]
      exact hrounds
    · rw [hnext]
      apply ih
      rw [Nat.cast_succ] at hfine
      rwa [sub_sub, add_comm (1 : ℤ)]

/-! ### The last grid is fine enough -/

/-- A power of ten below a power of two, by comparing their exponents: `10 ^ 3` is less than `2 ^ 10`
and `10 ^ 10` more than `2 ^ 33`. -/
theorem ten_zpow_lt_two_zpow {tens twos : ℤ} (hup : 0 ≤ tens → 10 * tens < 3 * twos)
    (hdown : tens < 0 → 33 * tens < 10 * twos) : (10 : ℚ) ^ tens < 2 ^ twos := by
  have hpower : ∀ (base : ℚ) (count : ℕ) (power : ℤ), (base ^ power) ^ count = (base ^ count) ^ power :=
    fun base count power => by rw [← zpow_natCast, ← zpow_natCast, ← zpow_mul, ← zpow_mul, mul_comm]
  rcases le_or_gt 0 tens with hsign | hsign
  · refine lt_of_pow_lt_pow_left₀ 3 (by positivity) ?_
    calc ((10 : ℚ) ^ tens) ^ 3 = (10 ^ 3) ^ tens := hpower 10 3 tens
      _ ≤ (2 ^ 10) ^ tens := zpow_le_zpow_left₀ hsign (by norm_num) (by norm_num)
      _ = 2 ^ (10 * tens) := by rw [zpow_mul]; rfl
      _ < 2 ^ (3 * twos) := zpow_lt_zpow_right₀ (by norm_num) (hup hsign)
      _ = (2 ^ twos) ^ 3 := by rw [hpower, zpow_mul]; rfl
  · refine lt_of_pow_lt_pow_left₀ 10 (by positivity) ?_
    have hinverse : ((10 : ℚ) ^ 10)⁻¹ ^ (-tens) ≤ (2 ^ 33)⁻¹ ^ (-tens) :=
      zpow_le_zpow_left₀ (by omega) (by positivity) (by norm_num)
    rw [inv_zpow', inv_zpow', neg_neg] at hinverse
    calc ((10 : ℚ) ^ tens) ^ 10 = (10 ^ 10) ^ tens := hpower 10 10 tens
      _ ≤ (2 ^ 33) ^ tens := hinverse
      _ = 2 ^ (33 * tens) := by rw [zpow_mul]; rfl
      _ < 2 ^ (10 * twos) := zpow_lt_zpow_right₀ (by norm_num) (hdown hsign)
      _ = (2 ^ twos) ^ 10 := by rw [hpower, zpow_mul]; rfl

/-- The range of the significands and exponents of finite doubles. -/
structure InRange (significand : ℕ) (exponent : ℤ) : Prop where
  significand_lt : significand < 2 ^ 53
  le_exponent : -1074 ≤ exponent
  exponent_le : exponent ≤ 971

/-- From the first grid, 23 steps lead to one that is finer than half the gap to the next double. -/
theorem InRange.last_grid_fine (hrange : InRange significand exponent) :
    (10 : ℚ) ^ ((Nat.log2 significand + 1 + exponent) * 30103 / 100000 + 1 - (23 : ℕ)) <
      2 ^ (exponent - 1) := by
  obtain ⟨hsignificand, hlow, hhigh⟩ := hrange
  have hlog : Nat.log2 significand ≤ 52 := by
    by_cases hzero : significand = 0
    · rw [hzero]
      decide
    · have := (Nat.log2_lt hzero).mpr hsignificand
      omega
  apply ten_zpow_lt_two_zpow
  · omega
  · omega

/-- Dropping zeros at the end keeps the number. -/
theorem stripZeros_value (fuel digits : ℕ) (power : ℤ) :
    ((Decimal.stripZeros fuel digits power).1 : ℚ) * 10 ^ (Decimal.stripZeros fuel digits power).2 =
      digits * 10 ^ power := by
  induction fuel generalizing digits power with
  | zero => rfl
  | succ fuel ih =>
    rw [Decimal.stripZeros]
    split_ifs with hzero
    · rw [ih, zpow_add_one₀ (by norm_num)]
      obtain ⟨tenth, rfl⟩ := Nat.dvd_of_mod_eq_zero hzero.2
      rw [Nat.mul_div_cancel_left _ (by norm_num)]
      push_cast
      ring
    · rfl

/-- The shortest decimal of a double rounds to it. -/
theorem rounds_shortest (hrange : InRange significand exponent) (hpositive : significand ≠ 0)
    (negative : Bool) :
    Rounds significand exponent narrowBelow
      (shortest tie negative significand exponent narrowBelow).magnitude := by
  rw [shortest, if_neg hpositive, Decimal.magnitude]
  dsimp only
  rw [stripZeros_value]
  exact rounds_searchGrid hrange.last_grid_fine

/-! ### Intervals of different doubles -/

/-- The significand of a double is full unless its exponent is the least one, and the gap below it is
narrow if it is the least full significand of any other exponent. -/
structure IsCanonical (significand : ℕ) (exponent : ℤ) (narrowBelow : Bool) : Prop
    extends InRange significand exponent where
  full : exponent ≠ -1074 → 2 ^ 52 ≤ significand
  narrow_iff : narrowBelow = true ↔ significand = 2 ^ 52 ∧ exponent ≠ -1074

variable {significand' : ℕ} {exponent' : ℤ} {narrowBelow' : Bool} {value value' : ℚ}

/-- The lower end of an interval is at most half a unit below the double. -/
theorem le_lowQuarters (significand : ℕ) (narrowBelow : Bool) :
    4 * significand - 2 ≤ lowQuarters significand narrowBelow := by
  unfold lowQuarters
  split <;> omega

/-- No number rounds to one double, and no larger one to another, if the upper end of the one is below the
lower end of the other, or at it without being even in both. -/
theorem Rounds.false_of_le (hfirst : Rounds significand exponent narrowBelow value)
    (hsecond : Rounds significand' exponent' narrowBelow' value') (hvalues : value' ≤ value)
    (hle : ((4 * significand + 2 : ℕ) : ℚ) * 2 ^ (exponent - 2) ≤
      lowQuarters significand' narrowBelow' * 2 ^ (exponent' - 2))
    (hodd : significand % 2 = 0 → significand' % 2 = 0 →
      ((4 * significand + 2 : ℕ) : ℚ) * 2 ^ (exponent - 2) ≠
        lowQuarters significand' narrowBelow' * 2 ^ (exponent' - 2)) : False := by
  rcases hfirst.upper with hupper | ⟨heven, hupper⟩
  · rcases hsecond.lower with hlower | ⟨-, hlower⟩
    · linarith
    · linarith
  · rcases hsecond.lower with hlower | ⟨heven', hlower⟩
    · linarith
    · exact hodd heven heven' (by linarith)

/-- Of doubles with the same exponent, no number rounds to the smaller one that is not below one that rounds
to the larger. -/
theorem Rounds.false_of_lt_significand (hfirst : Rounds significand exponent narrowBelow value)
    (hsecond : Rounds significand' exponent narrowBelow' value') (hvalues : value' ≤ value)
    (hlt : significand < significand') : False := by
  have hlow := le_lowQuarters significand' narrowBelow'
  have hquarter : (0 : ℚ) < 2 ^ (exponent - 2) := by positivity
  refine hfirst.false_of_le hsecond hvalues ?_ ?_
  · exact mul_le_mul_of_nonneg_right (Nat.cast_le.mpr (by omega)) hquarter.le
  · intro heven heven' hends
    have hends := Nat.cast_injective (mul_right_cancel₀ hquarter.ne' hends)
    omega

/-- The lower end of the interval of a full significand, whose gap below is narrow if it is the least. -/
theorem le_lowQuarters_of_full (hfull : 2 ^ 52 ≤ significand)
    (hnarrow : significand = 2 ^ 52 → narrowBelow = true) :
    2 ^ 54 - 1 ≤ lowQuarters significand narrowBelow := by
  unfold lowQuarters
  split_ifs with hbelow
  · omega
  · have hmore : significand ≠ 2 ^ 52 := fun hleast => hbelow (hnarrow hleast)
    omega

/-- The lower end of the interval of a double whose exponent is not the least one. -/
theorem IsCanonical.le_lowQuarters (hcanonical : IsCanonical significand exponent narrowBelow)
    (hexponent : exponent ≠ -1074) : 2 ^ 54 - 1 ≤ lowQuarters significand narrowBelow :=
  le_lowQuarters_of_full (hcanonical.full hexponent) fun hleast =>
    hcanonical.narrow_iff.mpr ⟨hleast, hexponent⟩

/-- No number rounds to a double that is not below one that rounds to a full significand with a larger
exponent. -/
theorem Rounds.false_of_lt_exponent (hfirst : Rounds significand exponent narrowBelow value)
    (hsecond : Rounds significand' exponent' narrowBelow' value') (hvalues : value' ≤ value)
    (hsmall : significand < 2 ^ 53)
    (hend : 2 ^ 54 - 1 ≤ lowQuarters significand' narrowBelow') (hlt : exponent < exponent') : False := by
  obtain ⟨steps, rfl⟩ : ∃ steps : ℕ, exponent' = exponent + 1 + steps :=
    ⟨(exponent' - exponent - 1).toNat, by omega⟩
  have hquarter : (0 : ℚ) < 2 ^ (exponent - 2) := by positivity
  have hscale : (2 : ℚ) ^ (exponent + 1 + steps - 2) = (2 ^ (1 + steps) : ℕ) * 2 ^ (exponent - 2) := by
    rw [Nat.cast_pow, ← zpow_natCast, Nat.cast_ofNat, ← zpow_add₀ two_ne_zero]
    congr 1
    push_cast
    ring
  -- The other unit is at least twice as large.
  have htwice : 2 * lowQuarters significand' narrowBelow' ≤
      lowQuarters significand' narrowBelow' * 2 ^ (1 + steps) := by
    have hpower : 2 ^ 1 ≤ 2 ^ (1 + steps) := Nat.pow_le_pow_right two_pos (by omega)
    calc 2 * lowQuarters significand' narrowBelow' = lowQuarters significand' narrowBelow' * 2 ^ 1 := by ring
      _ ≤ lowQuarters significand' narrowBelow' * 2 ^ (1 + steps) := Nat.mul_le_mul_left _ hpower
  refine hfirst.false_of_le hsecond hvalues ?_ ?_
  · rw [hscale, ← mul_assoc, ← Nat.cast_mul]
    exact mul_le_mul_of_nonneg_right (Nat.cast_le.mpr (by omega)) hquarter.le
  · intro heven _ hends
    rw [hscale, ← mul_assoc, ← Nat.cast_mul] at hends
    have hends := Nat.cast_injective (mul_right_cancel₀ hquarter.ne' hends)
    omega

/-- A number rounds to one double only. -/
theorem Rounds.unique (hfirst : Rounds significand exponent narrowBelow value)
    (hsecond : Rounds significand' exponent' narrowBelow' value)
    (hcanonical : IsCanonical significand exponent narrowBelow)
    (hcanonical' : IsCanonical significand' exponent' narrowBelow') :
    significand = significand' ∧ exponent = exponent' := by
  have hlow := hcanonical.le_exponent
  have hlow' := hcanonical'.le_exponent
  rcases lt_trichotomy exponent exponent' with hlt | rfl | hgt
  · have hend := hcanonical'.le_lowQuarters (by omega)
    exact (hfirst.false_of_lt_exponent hsecond le_rfl hcanonical.significand_lt hend hlt).elim
  · rcases lt_trichotomy significand significand' with hlt | hsame | hgt
    · exact (hfirst.false_of_lt_significand hsecond le_rfl hlt).elim
    · exact ⟨hsame, rfl⟩
    · exact (hsecond.false_of_lt_significand hfirst le_rfl hgt).elim
  · have hend := hcanonical.le_lowQuarters (by omega)
    exact (hsecond.false_of_lt_exponent hfirst le_rfl hcanonical'.significand_lt hend hgt).elim

/-- Nothing but zero rounds to zero. -/
theorem Rounds.pos (hrounds : Rounds significand exponent narrowBelow value) (hpositive : significand ≠ 0) :
    0 < value := by
  have hlow := le_lowQuarters significand narrowBelow
  have hend : (0 : ℚ) < lowQuarters significand narrowBelow * 2 ^ (exponent - 2) :=
    mul_pos (Nat.cast_pos.mpr (by omega)) (by positivity)
  rcases hrounds.lower with hlower | ⟨-, hlower⟩
  · exact hend.trans hlower
  · exact hlower ▸ hend

/-- The shortest decimal of a double is zero for zero only. -/
theorem magnitude_shortest_eq_zero_iff (hrange : InRange significand exponent) (negative : Bool) :
    (shortest tie negative significand exponent narrowBelow).magnitude = 0 ↔ significand = 0 := by
  constructor
  · intro hmagnitude
    by_contra hpositive
    exact ((rounds_shortest hrange hpositive negative).pos hpositive).ne' hmagnitude
  · intro hzero
    rw [shortest, if_pos hzero, Decimal.magnitude, Nat.cast_zero, zero_mul]

/-- The shortest decimal of a double tells its significand and its exponent. -/
theorem eq_of_magnitude_shortest_eq {negative negative' : Bool}
    (hcanonical : IsCanonical significand exponent narrowBelow)
    (hcanonical' : IsCanonical significand' exponent' narrowBelow')
    (hsame : (shortest tie negative significand exponent narrowBelow).magnitude =
      (shortest tie negative' significand' exponent' narrowBelow').magnitude) :
    significand = significand' ∧ exponent = exponent' := by
  by_cases hzero : significand = 0
  · rw [(magnitude_shortest_eq_zero_iff hcanonical.toInRange negative).mpr hzero, eq_comm,
      magnitude_shortest_eq_zero_iff hcanonical'.toInRange negative'] at hsame
    -- A significand that is not full has the least exponent.
    have hleast : ∀ {significand : ℕ} {exponent : ℤ} {narrowBelow : Bool},
        IsCanonical significand exponent narrowBelow → significand = 0 → exponent = -1074 := by
      intro significand exponent narrowBelow hcanonical hzero
      by_contra hexponent
      have hfull := hcanonical.full hexponent
      omega
    exact ⟨hzero.trans hsame.symm, (hleast hcanonical hzero).trans (hleast hcanonical' hsame).symm⟩
  · have hpositive : significand' ≠ 0 := by
      rwa [Ne, ← magnitude_shortest_eq_zero_iff hcanonical'.toInRange negative', ← hsame,
        magnitude_shortest_eq_zero_iff hcanonical.toInRange negative]
    have hrounds : Rounds significand' exponent' narrowBelow'
        (shortest tie negative significand exponent narrowBelow).magnitude :=
      hsame ▸ rounds_shortest hcanonical'.toInRange hpositive negative'
    exact (rounds_shortest hcanonical.toInRange hzero negative).unique hrounds hcanonical hcanonical'

end PrivateFootage.Binary
