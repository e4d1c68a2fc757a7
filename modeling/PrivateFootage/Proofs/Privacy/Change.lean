import Mathlib

/-!
# How far two sequences differ

Two measures: the number of positions at which two sequences differ, and the sum of the distances
between their values. A function of single items that moves no value by more than a width turns the
first into the second, and adding up groups of values never increases the second.
-/

namespace PrivateFootage

variable {β : Type}

/-- The positions at which two sequences differ. -/
def changedPositions [DecidableEq β] (before after : List β) : Finset ℕ :=
  (Finset.range (max before.length after.length)).filter fun i => before[i]? ≠ after[i]?

/-- How many positions of two sequences differ. -/
def changedCount [DecidableEq β] (before after : List β) : ℕ :=
  (changedPositions before after).card

/-- The sum of the distances between the values of two sequences. -/
def totalChange (before after : List ℚ) : ℚ :=
  (List.zipWith (fun x y => |x - y|) before after).sum

/-- A position belongs to the changed ones exactly if the sequences differ there. -/
theorem mem_changedPositions [DecidableEq β] {before after : List β} {i : ℕ} :
    i ∈ changedPositions before after ↔ before[i]? ≠ after[i]? := by
  rw [changedPositions, Finset.mem_filter, Finset.mem_range, and_iff_right_iff_imp]
  intro hne
  by_contra hge
  rw [not_lt, max_le_iff] at hge
  rw [List.getElem?_eq_none hge.1, List.getElem?_eq_none hge.2] at hne
  exact hne rfl

/-- The first items count on their own. -/
theorem changedCount_cons [DecidableEq β] (x y : β) (before after : List β) :
    changedCount (x :: before) (y :: after) =
      changedCount before after + if x = y then 0 else 1 := by
  have hmax : max (x :: before).length (y :: after).length =
      max before.length after.length + 1 := by
    simp only [List.length_cons]
    omega
  rw [changedCount, changedCount, changedPositions, changedPositions, Finset.card_filter,
    Finset.card_filter, hmax, Finset.sum_range_succ']
  simp

/-- Equal sequences differ nowhere. -/
@[simp] theorem changedCount_self [DecidableEq β] (items : List β) : changedCount items items = 0 := by
  simp [changedCount, changedPositions]

/-- Sequences differ in no more positions than they have. -/
theorem changedCount_le_length [DecidableEq β] {before after : List β}
    (hlength : before.length = after.length) : changedCount before after ≤ before.length := by
  have hcard := Finset.card_filter_le (Finset.range (max before.length after.length))
    fun i => before[i]? ≠ after[i]?
  rw [Finset.card_range, ← hlength, max_self] at hcard
  rw [changedCount, changedPositions, ← hlength, max_self]
  exact hcard

/-- Stretches from the same place differ in no more positions than the whole sequences. -/
theorem changedCount_stretch_le [DecidableEq β] (before after : List β) (start size : ℕ) :
    changedCount ((before.drop start).take size) ((after.drop start).take size) ≤
      changedCount before after := by
  apply Finset.card_le_card_of_injOn (start + ·)
  · intro i hi
    rw [Finset.mem_coe, mem_changedPositions] at hi ⊢
    rw [List.getElem?_take, List.getElem?_take] at hi
    by_cases hlt : i < size
    · rwa [if_pos hlt, if_pos hlt, List.getElem?_drop, List.getElem?_drop] at hi
    · rw [if_neg hlt, if_neg hlt] at hi
      exact absurd rfl hi
  · exact (add_right_injective start).injOn

/-- Sequences that end alike differ at most where they do not. -/
theorem changedCount_append_le [DecidableEq β] {before after : List β}
    (hlength : before.length = after.length) (ending : List β) :
    changedCount (before ++ ending) (after ++ ending) ≤ before.length := by
  have hsubset : changedPositions (before ++ ending) (after ++ ending) ⊆
      Finset.range before.length := by
    intro i hi
    rw [mem_changedPositions] at hi
    rw [Finset.mem_range]
    by_contra hge
    apply hi
    rw [List.getElem?_append_right (by omega), List.getElem?_append_right (by omega), hlength]
  have hcard := Finset.card_le_card hsubset
  rwa [Finset.card_range] at hcard

/-- The distances of the first values come first. -/
theorem totalChange_cons (x y : ℚ) (before after : List ℚ) :
    totalChange (x :: before) (y :: after) = |x - y| + totalChange before after := by
  simp [totalChange]

/-- Distances add up to no less than zero. -/
theorem totalChange_nonneg (before after : List ℚ) : 0 ≤ totalChange before after := by
  apply List.sum_nonneg
  intro distance hdistance
  rw [← List.map_uncurry_zip_eq_zipWith] at hdistance
  obtain ⟨pair, -, rfl⟩ := List.mem_map.mp hdistance
  exact abs_nonneg _

/-- Distances of consecutive stretches add up. -/
theorem totalChange_append {before after : List ℚ} (hlength : before.length = after.length)
    (before' after' : List ℚ) :
    totalChange (before ++ before') (after ++ after') =
      totalChange before after + totalChange before' after' := by
  rw [totalChange, List.zipWith_append hlength, List.sum_append]
  rfl

/-- Sums lie no further apart than their terms. -/
theorem abs_sum_sub_sum_le {before after : List ℚ} (hlength : before.length = after.length) :
    |before.sum - after.sum| ≤ totalChange before after := by
  induction before generalizing after with
  | nil =>
    rw [List.eq_nil_of_length_eq_zero hlength.symm]
    simp [totalChange]
  | cons x before ih =>
    cases after with
    | nil => simp at hlength
    | cons y after =>
      have htail := ih (Nat.succ.inj hlength)
      rw [List.sum_cons, List.sum_cons, totalChange_cons, add_sub_add_comm]
      exact (abs_add_le _ _).trans (by linarith)

/-- One more pair of items adds at most a width, and nothing if the two are equal. -/
theorem abs_sub_add_le_changed [DecidableEq β] (f : β → ℚ) {x y : β} {width total : ℚ} {count : ℕ}
    (hhead : |f x - f y| ≤ width) (htail : total ≤ count * width) :
    |f x - f y| + total ≤ ((count + if x = y then 0 else 1 : ℕ) : ℚ) * width := by
  by_cases heq : x = y
  · subst heq
    rw [sub_self, abs_zero, zero_add, if_pos rfl, Nat.add_zero]
    exact htail
  · rw [if_neg heq, Nat.cast_add, Nat.cast_one, add_mul, one_mul, add_comm]
    exact add_le_add htail hhead

/-- A function that moves no pair of items by more than a width turns changed positions into at most
that width each. -/
theorem totalChange_map_le [DecidableEq β] {before after : List β} (f : β → ℚ) {width : ℚ}
    (hlength : before.length = after.length)
    (hwidth : ∀ pair ∈ before.zip after, |f pair.1 - f pair.2| ≤ width) :
    totalChange (before.map f) (after.map f) ≤ changedCount before after * width := by
  induction before generalizing after with
  | nil =>
    rw [List.eq_nil_of_length_eq_zero hlength.symm]
    simp [totalChange]
  | cons x before ih =>
    cases after with
    | nil => simp at hlength
    | cons y after =>
      have htail := ih (Nat.succ.inj hlength) fun pair hpair =>
        hwidth pair (List.mem_cons_of_mem _ hpair)
      have hhead := hwidth (x, y) (List.mem_cons_self ..)
      rw [List.map_cons, List.map_cons, totalChange_cons, changedCount_cons]
      exact abs_sub_add_le_changed f hhead htail

/-- Adding up groups of values brings two sequences no further apart. -/
theorem totalChange_sums_le {before after : List (List ℚ)}
    (hlength : List.Forall₂ (fun x y => x.length = y.length) before after) :
    totalChange (before.map List.sum) (after.map List.sum) ≤
      totalChange before.flatten after.flatten := by
  induction hlength with
  | nil => simp [totalChange]
  | cons hhead _ ih =>
    rw [List.map_cons, List.map_cons, totalChange_cons, List.flatten_cons, List.flatten_cons,
      totalChange_append hhead]
    exact add_le_add (abs_sum_sub_sum_le hhead) ih

end PrivateFootage
