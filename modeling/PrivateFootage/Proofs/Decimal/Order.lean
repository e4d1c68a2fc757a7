import Mathlib
import PrivateFootage.Proofs.Decimal.Nearest

/-!
# The order of doubles

Doubles are compared by sign, then by exponent, then by significand, and nothing is comparable with the value
that is not a number. A whole number becomes the double that it rounds to, or infinity if it is too large, so
larger whole numbers become no smaller doubles.
-/

namespace PrivateFootage.Binary

open Float.Model Float.Model.UnpackedFloat

/-! ### Places in the order -/

/-- Where a number stands in the order: by sign and infinity, then by exponent, then by significand. -/
def orderKey : UnpackedFloat → Option (ℤ ×ₗ ℤ ×ₗ ℤ)
  | .notANumber => none
  | .zero _ => some (toLex (0, toLex (0, 0)))
  | .infinity .positive => some (toLex (2, toLex (0, 0)))
  | .infinity .negative => some (toLex (-2, toLex (0, 0)))
  | .finite .positive significand exponent _ => some (toLex (1, toLex (exponent, (significand : ℤ))))
  | .finite .negative significand exponent _ => some (toLex (-1, toLex (-exponent, -(significand : ℤ))))

/-- Natural numbers compare as whole numbers. -/
theorem compare_natCast (first second : ℕ) : compare (first : ℤ) second = compare first second := by
  rw [← cmp_eq_compare, ← cmp_eq_compare]
  exact Nat.strictMono_cast.cmp_map_eq first second

/-- Whole numbers compare in reverse once their signs are changed. -/
theorem compare_neg (first second : ℤ) : compare (-first) (-second) = (compare first second).swap := by
  rw [← cmp_eq_compare, ← cmp_eq_compare, cmp_swap]
  exact strictMono_id.neg.cmp_map_eq first second

/-- Finite values compare as their places do. -/
theorem compare_finite (sign sign' : Sign) (significand significand' : ℕ) (exponent exponent' : ℤ)
    (hpositive : 0 < significand) (hpositive' : 0 < significand') :
    (UnpackedFloat.finite sign significand exponent hpositive).compare
        (.finite sign' significand' exponent' hpositive') =
      Option.map₂ compare (orderKey (.finite sign significand exponent hpositive))
        (orderKey (.finite sign' significand' exponent' hpositive')) := by
  cases sign with
  | positive =>
    cases sign' with
    | positive =>
      change some _ = some ((compare exponent exponent').then (compare (significand : ℤ) significand'))
      rw [compare_natCast]
    | negative => rfl
  | negative =>
    cases sign' with
    | positive => rfl
    | negative =>
      change some _ = some ((compare (-exponent) (-exponent')).then (compare (-(significand : ℤ)) (-significand')))
      rw [compare_neg, compare_neg, compare_natCast, ← Ordering.swap_then]

/-- Values compare as their places do, and only if both are numbers. -/
theorem compare_eq_orderKey (first second : UnpackedFloat) :
    first.compare second = Option.map₂ compare (orderKey first) (orderKey second) := by
  cases first with
  | notANumber => rfl
  | zero sign => rcases second with (_ | _) | _ | _ | ⟨_ | _, _, _, _⟩ <;> rfl
  | infinity sign => cases sign <;> rcases second with (_ | _) | _ | _ | ⟨_ | _, _, _, _⟩ <;> rfl
  | finite sign significand exponent hpositive =>
    cases second with
    | notANumber => cases sign <;> rfl
    | zero sign' => cases sign <;> rfl
    | infinity sign' => cases sign <;> cases sign' <;> rfl
    | finite sign' significand' exponent' hpositive' => exact compare_finite ..

/-- The place of a double in the order. -/
def placeOf (double : Float) : Option (ℤ ×ₗ ℤ ×ₗ ℤ) := orderKey double.toModel.unpack

variable {first second third : Float}

/-- A double is at most another if their places say so. -/
theorem le_iff_placeOf : first ≤ second ↔ ∃ place ∈ placeOf first, ∃ place' ∈ placeOf second, place ≤ place' := by
  have hmodel : first ≤ second ↔ (first.toModel.unpack.compare second.toModel.unpack).any (·.isLE) = true :=
    decide_eq_true_iff
  rw [hmodel, compare_eq_orderKey, ← placeOf, ← placeOf]
  cases placeOf first <;> cases placeOf second <;> simp [Ordering.isLE_iff_ne_gt, compare_le_iff_le]

/-- A double is less than another if their places say so. -/
theorem lt_iff_placeOf : first < second ↔ ∃ place ∈ placeOf first, ∃ place' ∈ placeOf second, place < place' := by
  have hmodel : first < second ↔ (first.toModel.unpack.compare second.toModel.unpack == some .lt) = true :=
    decide_eq_true_iff
  rw [hmodel, compare_eq_orderKey, ← placeOf, ← placeOf]
  cases placeOf first <;> cases placeOf second <;> simp [compare_lt_iff_lt]

/-- What is less than a double is less than all that are at least that double. -/
theorem double_lt_of_le_of_lt (hfirst : first ≤ second) (hsecond : second < third) : first < third := by
  obtain ⟨place, hplace, middle, hmiddle, hle⟩ := le_iff_placeOf.mp hfirst
  obtain ⟨middle', hmiddle', place', hplace', hlt⟩ := lt_iff_placeOf.mp hsecond
  obtain rfl := Option.mem_unique hmiddle hmiddle'
  exact lt_iff_placeOf.mpr ⟨place, hplace, place', hplace', hle.trans_lt hlt⟩

/-! ### Whole numbers -/

variable {significand : ℕ} {exponent : ℤ} {count count' : ℕ}

/-- A power of two is the least full significand with some exponent. -/
theorem nearest_two_pow (power : ℕ) : Nearest (2 ^ 52) (power - 52) (2 ^ power : ℕ) := by
  have hvalue : ((2 ^ 52 : ℕ) : ℚ) * 2 ^ (power - 52 : ℤ) = (2 ^ power : ℕ) := by
    rw [zpow_sub₀ two_ne_zero, zpow_natCast]
    push_cast
    field_simp
  rw [← hvalue]
  exact ⟨rounds_self (by norm_num), by norm_num, by omega, fun _ => le_rfl⟩

/-- What a positive whole number rounds to has a full significand. -/
theorem Nearest.le_significand (hnearest : Nearest significand exponent count) (hpositive : 0 < count) :
    2 ^ 52 ≤ significand := by
  have hle := (nearest_two_pow 0).le_of_le hnearest (Nat.cast_le.mpr hpositive)
  exact hnearest.full (by omega)

/-- Whole numbers of up to 53 bits round to small exponents. -/
theorem Nearest.exponent_le (hnearest : Nearest significand exponent count) (hsmall : count < 2 ^ 53) :
    exponent ≤ 1 := by
  have hle := hnearest.le_of_le (nearest_two_pow 53) (Nat.cast_le.mpr hsmall.le)
  omega

/-- The place of a positive whole number in the order of doubles: that of what it rounds to, or that of
infinity. -/
theorem exists_placeOf_ofNat (hpositive : 0 < count) :
    ∃ significand exponent, Nearest significand exponent count ∧
      placeOf (Float.ofNat count) =
        some (if exponent ≤ 971 then toLex (1, toLex (exponent, (significand : ℤ)))
          else toLex (2, toLex (0, 0))) := by
  obtain ⟨significand, exponent, hnearest, hrounded⟩ :=
    exists_nearest_ofScientific hpositive (show (0 : ℤ) ≤ 2048 by norm_num) (by omega)
  have hcount : Nearest significand exponent count := by rwa [zpow_zero, mul_one] at hnearest
  have hfull := hcount.le_significand hpositive
  refine ⟨significand, exponent, hcount, ?_⟩
  split_ifs with hhigh
  · have hunpack := unpack_ofScientific hpositive (by norm_num) (by omega) hnearest.rounds
      (hnearest.isCanonical hhigh) (by omega)
    exact congrArg orderKey hunpack
  · have hlong : ¬(count < 2 ^ 53 ∧ 0 ≤ 22) := by
      rintro ⟨hshort, -⟩
      have hsmall := hcount.exponent_le hshort
      omega
    have hunpack : (Float.ofNat count).toModel.unpack = .infinity .positive := by
      change (Float.ofScientific count false 0).toModel.unpack = _
      unfold Float.ofScientific
      rw [dif_neg hlong]
      change (Float.Model.pack (UnpackedFloat.ofScientific .binary64 count 0)).unpack = _
      rw [hrounded, ofParts, dif_neg (by omega)]
      exact unpack_pack_of_large .positive _ (not_le.mp hhigh)
    exact congrArg orderKey hunpack

/-- The place of zero. -/
theorem placeOf_zero : placeOf (Float.ofNat 0) = some (toLex (0, toLex (0, 0))) := by decide +kernel

/-- Larger whole numbers become no smaller doubles. -/
theorem ofNat_le_ofNat (hle : count ≤ count') : Float.ofNat count ≤ Float.ofNat count' := by
  rw [le_iff_placeOf]
  rcases Nat.eq_zero_or_pos count' with rfl | hpositive'
  · obtain rfl := Nat.le_zero.mp hle
    exact ⟨_, placeOf_zero, _, placeOf_zero, le_rfl⟩
  · obtain ⟨significand', exponent', hnearest', hplace'⟩ := exists_placeOf_ofNat hpositive'
    rcases Nat.eq_zero_or_pos count with rfl | hpositive
    · refine ⟨_, placeOf_zero, _, hplace', ?_⟩
      split_ifs <;> simp [Prod.Lex.toLex_le_toLex]
    · obtain ⟨significand, exponent, hnearest, hplace⟩ := exists_placeOf_ofNat hpositive
      have hnearer := hnearest.le_of_le hnearest' (Nat.cast_le.mpr hle)
      refine ⟨_, hplace, _, hplace', ?_⟩
      split_ifs with hhigh hhigh' hhigh'
      · refine Prod.Lex.toLex_le_toLex.mpr (.inr ⟨rfl, Prod.Lex.toLex_le_toLex.mpr ?_⟩)
        exact hnearer.imp_right (And.imp_right Nat.cast_le.mpr)
      · exact Prod.Lex.toLex_le_toLex.mpr (.inl (by norm_num))
      · omega
      · exact le_rfl

end PrivateFootage.Binary
