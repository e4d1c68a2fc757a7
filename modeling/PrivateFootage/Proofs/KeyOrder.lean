import Mathlib
import PrivateFootage.Scalar

/-!
# Orders by a number, with ties broken

Pairs are sorted by their cost and detections by their confidence, in the total order of numbers. Where that
order leaves a tie, positions break it. An order like that is transitive, total or strict as the rule for ties
is.
-/

namespace PrivateFootage

variable {α β : Type} [Scalar α] {key : β → α} {tie tie' : β → β → Prop} {a b c : β}

/-- Whatever is not placed behind is placed before. -/
theorem Scalar.precedes_of_not_precedes {x y : α} (hxy : precedes x y = false) : precedes y x = true := by
  rcases precedes_total x y with h | h
  · rw [hxy] at h
    cases h
  · exact h

/-- Every number is placed with itself. -/
theorem Scalar.precedes_self (x : α) : precedes x x = true :=
  (precedes_total x x).elim id id

/-- By their keys, one item does not come behind another, and at a tie it is as the rule for ties says. -/
def ByKey (key : β → α) (tie : β → β → Prop) (a b : β) : Prop :=
  Scalar.precedes (key a) (key b) = true ∧ (Scalar.precedes (key b) (key a) = true → tie a b)

/-- An item comes before another if its key does, or if it is at a tie and the rule for ties says so. -/
theorem byKey_iff : ByKey key tie a b ↔
    Scalar.precedes (key b) (key a) = false ∨ Scalar.precedes (key a) (key b) = true ∧ tie a b := by
  constructor
  · rintro ⟨hab, htie⟩
    by_cases hba : Scalar.precedes (key b) (key a) = true
    · exact .inr ⟨hab, htie hba⟩
    · exact .inl (Bool.eq_false_iff.mpr hba)
  · intro hbefore
    cases hbefore with
    | inl hless => exact ⟨Scalar.precedes_of_not_precedes hless, fun hba => by simp [hless] at hba⟩
    | inr htied => exact ⟨htied.1, fun _ => htied.2⟩

/-- A rule for ties that says more. -/
theorem ByKey.imp (hab : ByKey key tie a b) (himp : tie a b → tie' a b) : ByKey key tie' a b :=
  ⟨hab.1, fun hba => himp (hab.2 hba)⟩

/-- The order is transitive if the rule for ties is. -/
theorem ByKey.trans (htie : tie a b → tie b c → tie a c) (hab : ByKey key tie a b) (hbc : ByKey key tie b c) :
    ByKey key tie a c := by
  refine ⟨Scalar.precedes_trans _ _ _ hab.1 hbc.1, fun hca => ?_⟩
  -- The three are at a tie, since the order of the keys comes back to where it started.
  have hba := hab.2 (Scalar.precedes_trans _ _ _ hbc.1 hca)
  have hcb := hbc.2 (Scalar.precedes_trans _ _ _ hca hab.1)
  exact htie hba hcb

/-- The order is total if the rule for ties is. -/
theorem byKey_total (htie : tie a b ∨ tie b a) : ByKey key tie a b ∨ ByKey key tie b a := by
  simp only [byKey_iff]
  by_cases hab : Scalar.precedes (key a) (key b) = true
  · by_cases hba : Scalar.precedes (key b) (key a) = true
    · exact htie.imp (fun h => .inr ⟨hab, h⟩) fun h => .inr ⟨hba, h⟩
    · exact .inl (.inl (Bool.eq_false_iff.mpr hba))
  · exact .inr (.inl (Bool.eq_false_iff.mpr hab))

/-- Nothing comes before itself if the rule for ties does not say so. -/
theorem byKey_irrefl (htie : ¬tie a a) : ¬ByKey key tie a a :=
  fun ha => htie (ha.2 (Scalar.precedes_self _))

/-- Positions rise along a list. -/
theorem pairwise_zipIdx {β : Type} (items : List β) : items.zipIdx.Pairwise fun a b => a.2 < b.2 := by
  have hpositions : (items.zipIdx.map Prod.snd).Pairwise (· < ·) := by
    rw [List.zipIdx_map_snd]
    exact List.pairwise_lt_range'
  exact List.pairwise_map.mp hpositions

end PrivateFootage
