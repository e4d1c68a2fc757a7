import Mathlib
import PrivateFootage.Decimal.Layout
import PrivateFootage.Scalar

/-!
# The analysis in exact arithmetic

The rational numbers as numbers of the analysis. Statements about bounds, windows and boxes are made
about this instance, so that none of them depends on how doubles round. Every rational is finite and
compares with every other, so extremes and sums are the usual ones.

A rational has a decimal only if its denominator divides a power of ten. Infinities and the
non-number have no exact value and are read as zero; no statement here reads them.
-/

namespace PrivateFootage

namespace Exact

/-- The value of a decimal. -/
def ofDecimal (decimal : Decimal) : ℚ :=
  (if decimal.negative then -1 else 1) * decimal.digits * (10 : ℚ) ^ decimal.exponent

/-- The value of a written number. -/
def ofWritten : Written → ℚ
  | .decimal decimal => ofDecimal decimal
  | .infinite _ | .notANumber => 0

/-- The decimal equal to a number, with the fewest places. -/
def toDecimal? (value : ℚ) : Option Decimal :=
  ((List.range (value.den.log2 + 1)).find? fun places : ℕ => decide (value.den ∣ 10 ^ places)).map
    fun places : ℕ =>
      ⟨decide (value < 0), value.num.natAbs * 10 ^ places / value.den, -(places : ℤ)⟩

/-- The text of a number with a fixed number of places, rounded with ties to even. -/
def fixedText (places : ℕ) (value : ℚ) : String :=
  let scaled := value.num.natAbs * 10 ^ places
  let below := scaled / value.den
  let units := if Tie.toEven.goesUp below (scaled % value.den) value.den then below + 1 else below
  String.ofList (Decimal.fixedChars (decide (value < 0)) units places)

/-- The natural number that a number is equal to, held at `2 ^ 64 - 1`. -/
def index? (value : ℚ) : Option ℕ :=
  if 0 ≤ value ∧ value.den = 1 then some (min value.num.toNat (2 ^ 64 - 1)) else none

end Exact

/-- Exact arithmetic on rational numbers. -/
instance exactScalar : Scalar ℚ where
  ofNat n := n
  decideLE := inferInstance
  decideLT := inferInstance
  precedes a b := decide (a ≤ b)
  precedes_total a b := by simpa using le_total a b
  precedes_trans a b c := by simpa using le_trans
  isFinite _ := true
  ceil value := ⌈value⌉
  index? := Exact.index?
  ofDecimal? decimal := some (Exact.ofDecimal decimal)
  ofWritten := Exact.ofWritten
  toDecimal? := Exact.toDecimal?
  plainText value := toString value
  fixedText := Exact.fixedText

namespace Exact

/-- Natural numbers are taken as they are. -/
@[simp] theorem ofNat_eq_cast (n : ℕ) : (Scalar.ofNat n : ℚ) = n := rfl

/-- Rounding up is the integer ceiling. -/
@[simp] theorem ceil_eq_cast (value : ℚ) : Scalar.ceil value = (⌈value⌉ : ℚ) := rfl

/-- No exact number is infinite. -/
@[simp] theorem isFinite_eq_true (value : ℚ) : Scalar.isFinite value = true := rfl

/-- The larger of two exact numbers is their maximum. -/
@[simp] theorem larger_eq_max (a b : ℚ) : Scalar.larger a b = max a b := by
  unfold Scalar.larger
  split
  · next hle => exact (max_eq_right hle).symm
  · next hlt => rw [if_pos le_rfl, max_eq_left (not_le.mp hlt).le]

/-- The smaller of two exact numbers is their minimum. -/
@[simp] theorem smaller_eq_min (a b : ℚ) : Scalar.smaller a b = min a b := by
  unfold Scalar.smaller
  split
  · next hle => exact (min_eq_left hle).symm
  · next hlt => rw [if_pos le_rfl, min_eq_right (not_le.mp hlt).le]

/-- Clipping raises a value to the lower end, then lowers it to the upper end. -/
@[simp] theorem clip_eq (lower upper value : ℚ) :
    Scalar.clip lower upper value = min (max value lower) upper := by
  rw [Scalar.clip, smaller_eq_min, larger_eq_max]

/-- Adding up from negative zero is the sum of the list. -/
@[simp] theorem sum_eq (values : List ℚ) : Scalar.sum values = values.sum := by
  rw [List.sum_eq_foldl]
  rfl

/-- The mean is the sum over the number of values. -/
theorem mean_eq (values : List ℚ) : Scalar.mean values = values.sum / values.length := by
  rw [Scalar.mean, sum_eq]
  rfl

/-- Every exact number takes part in an extreme. -/
private theorem filter_comparable (values : List ℚ) :
    (values.filter fun value => decide (value ≤ value)) = values := by
  simp

/-- Keeping the larger number along a list is folding the maximum. -/
theorem foldl_larger (first : ℚ) (rest : List ℚ) :
    rest.foldl Scalar.larger first = rest.foldl max first := by
  have hlarger : (Scalar.larger : ℚ → ℚ → ℚ) = max := by
    funext a b
    exact larger_eq_max a b
  rw [hlarger]

/-- The greatest number of a list that is not empty. -/
theorem greatest_cons (first : ℚ) (rest : List ℚ) :
    Scalar.greatest (first :: rest) = rest.foldl max first := by
  rw [Scalar.greatest, Scalar.greatest?, filter_comparable, ← foldl_larger]
  rfl

/-- The least number of a list that is not empty. -/
theorem least_cons (first : ℚ) (rest : List ℚ) :
    Scalar.least (first :: rest) = rest.foldl min first := by
  have hsmaller : (Scalar.smaller : ℚ → ℚ → ℚ) = min := by
    funext a b
    exact smaller_eq_min a b
  rw [Scalar.least, Scalar.least?, filter_comparable, ← hsmaller]
  rfl

/-- Folding the maximum over a list finds its greatest member. -/
theorem isGreatest_foldl_max {β : Type} [LinearOrder β] (first : β) (rest : List β) :
    IsGreatest {value | value ∈ first :: rest} (rest.foldl max first) := by
  induction rest generalizing first with
  | nil => simp
  | cons second rest ih =>
    obtain ⟨hmem, hupper⟩ := ih (max first second)
    have hmax : max first second ≤ rest.foldl max (max first second) :=
      hupper (List.mem_cons_self ..)
    constructor
    · rcases List.mem_cons.mp hmem with heq | htail
      · rw [List.foldl_cons, Set.mem_ofPred_eq, heq]
        rcases max_choice first second with h | h <;> simp [h]
      · exact List.mem_cons_of_mem _ (List.mem_cons_of_mem _ htail)
    · intro value hvalue
      rcases List.mem_cons.mp hvalue with rfl | hvalue
      · exact (le_max_left _ _).trans hmax
      · rcases List.mem_cons.mp hvalue with rfl | hvalue
        · exact (le_max_right _ _).trans hmax
        · exact hupper (List.mem_cons_of_mem _ hvalue)

/-- The greatest number of a list that is not empty is one of its members and bounds them all. -/
theorem isGreatest_greatest {values : List ℚ} (hvalues : values ≠ []) :
    IsGreatest {value | value ∈ values} (Scalar.greatest values) := by
  obtain ⟨first, rest, rfl⟩ := List.exists_cons_of_ne_nil hvalues
  rw [greatest_cons]
  exact isGreatest_foldl_max first rest

/-- The least number of a list that is not empty is one of its members and bounds them all. -/
theorem isLeast_least {values : List ℚ} (hvalues : values ≠ []) :
    IsLeast {value | value ∈ values} (Scalar.least values) := by
  obtain ⟨first, rest, rfl⟩ := List.exists_cons_of_ne_nil hvalues
  rw [least_cons]
  exact isGreatest_foldl_max (β := ℚᵒᵈ) first rest

end Exact

end PrivateFootage
