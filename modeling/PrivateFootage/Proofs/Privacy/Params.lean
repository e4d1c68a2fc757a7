import Mathlib
import PrivateFootage.Privacy.Params
import PrivateFootage.Proofs.ExactArithmetic
import PrivateFootage.Proofs.Outcome

/-!
# What accepted privacy parameters guarantee

The checks on privacy parameters, read backwards: from their success alone follow a positive budget
and number of segments, bounds that have entries, and one range whose lower end is below its upper
end. The range covers the bound of every region. It is the only thing that is compared: nothing says
that the two bounds of one region are in order.
-/

namespace PrivateFootage

namespace Bound

/-- The smallest number of a bound is below all of them. -/
theorem lowest_le {bound : Bound ℚ} {value : ℚ} (hvalue : value ∈ bound.values) :
    bound.lowest ≤ value := by
  cases bound with
  | scene only => exact (List.mem_singleton.mp hvalue).ge
  | perSplit values => exact (Exact.isLeast_least (List.ne_nil_of_mem hvalue)).2 hvalue

/-- The largest number of a bound is above all of them. -/
theorem le_highest {bound : Bound ℚ} {value : ℚ} (hvalue : value ∈ bound.values) :
    value ≤ bound.highest := by
  cases bound with
  | scene only => exact (List.mem_singleton.mp hvalue).le
  | perSplit values => exact (Exact.isGreatest_greatest (List.ne_nil_of_mem hvalue)).2 hvalue

end Bound

namespace PrivacyParams

section Checks

variable {α : Type} [Scalar α] {params : PrivacyParams α}

/-- A bound that passes its check has entries, as many as there are regions. -/
theorem checkBound_eq_ok {side : Side} {bound : Bound α} {splitCount : Option ℕ}
    (hcheck : checkBound side bound splitCount = .ok ()) :
    bound.values ≠ [] ∧ ∀ values count, bound = .perSplit values →
      splitCount = some count → values.length = count := by
  unfold checkBound at hcheck
  split at hcheck
  · cases hcheck
  · next hempty =>
    refine ⟨fun h => hempty (by simp [h]), ?_⟩
    rintro values count rfl rfl
    split at hcheck
    · cases hcheck
    · by_contra hne
      simp [Bound.splitCount?, hne, Outcome.setting] at hcheck

/-- Parameters that pass the checks for a rendition pass each of them. -/
theorem checks_of_validate {rendition : Rendition} (hvalid : params.validate rendition = .ok ()) :
    ¬(!Scalar.isFinite params.epsilon || decide (params.epsilon ≤ 0)) = true ∧
      params.segments ≠ 0 ∧ checkBound .lower params.lower params.splitCount = .ok () ∧
      checkBound .upper params.upper params.splitCount = .ok () ∧
      ¬params.highest < params.lowest ∧ params.checkRendition rendition = .ok () := by
  unfold validate at hvalid
  dsimp only at hvalid
  rw [Outcome.guard_eq_ok, Outcome.guard_eq_ok] at hvalid
  obtain ⟨hepsilon, hsegments, hvalid⟩ := hvalid
  obtain ⟨_, hlower, hvalid⟩ := Outcome.bind_eq_ok.mp hvalid
  obtain ⟨_, hupper, hvalid⟩ := Outcome.bind_eq_ok.mp hvalid
  rw [Outcome.guard_eq_ok] at hvalid
  exact ⟨hepsilon, hsegments, hlower, hupper, hvalid⟩

omit [Scalar α] in
/-- A rendition in regions needs a positive number of them. -/
theorem splitCount_of_checkRendition (hrendition : params.checkRendition .maskedRegions = .ok ()) :
    ∃ count, params.splitCount = some count ∧ 0 < count := by
  cases hcount : params.splitCount with
  | none => simp [checkRendition, hcount, Outcome.setting] at hrendition
  | some count =>
    refine ⟨count, rfl, ?_⟩
    by_contra hzero
    simp [checkRendition, hcount, hzero, Outcome.setting] at hrendition

end Checks

/-- What the checks on parameters establish, apart from what a rendition needs. -/
structure Accepted (params : PrivacyParams ℚ) : Prop where
  epsilon_pos : 0 < params.epsilon
  segments_pos : 0 < params.segments
  lower_ne_nil : params.lower.values ≠ []
  upper_ne_nil : params.upper.values ≠ []
  /-- A lower bound for each region has as many entries as there are regions. -/
  lower_count : ∀ values count, params.lower = .perSplit values →
    params.splitCount = some count → values.length = count
  /-- An upper bound for each region has as many entries as there are regions. -/
  upper_count : ∀ values count, params.upper = .perSplit values →
    params.splitCount = some count → values.length = count
  lowest_le_highest : params.lowest ≤ params.highest

variable {params : PrivacyParams ℚ}

/-- Parameters that pass the checks for a rendition are accepted and have what it needs. -/
theorem accepted_of_validate {rendition : Rendition} (hvalid : params.validate rendition = .ok ()) :
    params.Accepted ∧ params.checkRendition rendition = .ok () := by
  obtain ⟨hepsilon, hsegments, hlower, hupper, hordered, hrendition⟩ := checks_of_validate hvalid
  obtain ⟨hlowerValues, hlowerCount⟩ := checkBound_eq_ok hlower
  obtain ⟨hupperValues, hupperCount⟩ := checkBound_eq_ok hupper
  refine ⟨?_, hrendition⟩
  constructor
  · simpa using hepsilon
  · exact Nat.pos_of_ne_zero hsegments
  · exact hlowerValues
  · exact hupperValues
  · exact hlowerCount
  · exact hupperCount
  · exact not_lt.mp hordered

/-- A number of chunks within a reach moves by at most the width of the range for the whole reach. -/
theorem Accepted.mul_range_le (haccepted : params.Accepted) {changed reach : ℚ}
    (hchanged : changed ≤ reach) :
    changed * (params.highest - params.lowest) ≤
      (params.upper.highest - params.lower.lowest) * reach := by
  rw [mul_comm]
  exact mul_le_mul_of_nonneg_left hchanged (sub_nonneg.mpr haccepted.lowest_le_highest)

end PrivacyParams

end PrivateFootage
