import Mathlib
import PrivateFootage.Proofs.Privacy.Change
import PrivateFootage.Proofs.Privacy.Sensitivity
import PrivateFootage.Proofs.Window.Groups

/-!
# How many chunks a stay touches

A span of consecutive frames may start anywhere in a chunk, so it touches the chunks it would fill if
it started at a boundary, and one more. Several spans touch at most the sum, whether they overlap or
not. Hence two recordings that agree outside some spans differ in a bounded number of whole chunks.
-/

namespace PrivateFootage

/-- Consecutive positions of a sequence, from a first one on. -/
structure Span where
  first : ℕ
  length : ℕ
deriving DecidableEq

namespace Span

/-- Whether a position belongs to a span. -/
def Covers (span : Span) (position : ℕ) : Prop :=
  span.first ≤ position ∧ position < span.first + span.length

/-- The groups of a given size that a span has positions in. -/
def touched (span : Span) (size : ℕ) : Finset ℕ :=
  (Finset.Ico span.first (span.first + span.length)).image (· / size)

/-- A position of a span lies in a group that the span touches. -/
theorem div_mem_touched {span : Span} {position : ℕ} (hcovers : span.Covers position) (size : ℕ) :
    position / size ∈ span.touched size :=
  Finset.mem_image_of_mem _ (Finset.mem_Ico.mpr hcovers)

/-- A span touches the groups it could fill from a boundary on, and one more. -/
theorem card_touched_le {span : Span} {size : ℕ} {persistence : ℚ} (hpos : 0 < size)
    (hlength : (span.length : ℚ) ≤ persistence) :
    (span.touched size).card ≤ touchedChunks persistence size := by
  rcases Nat.eq_zero_or_pos span.length with hzero | hlong
  · simp [touched, hzero]
  · have hsubset : span.touched size ⊆
        Finset.Icc (span.first / size) ((span.first + (span.length - 1)) / size) := by
      intro group hgroup
      obtain ⟨position, hposition, rfl⟩ := Finset.mem_image.mp hgroup
      rw [Finset.mem_Ico] at hposition
      exact Finset.mem_Icc.mpr
        ⟨Nat.div_le_div_right hposition.1, Nat.div_le_div_right (by omega)⟩
    have hsplit := Nat.add_div (a := span.first) (b := span.length - 1) hpos
    have hfilled : (span.length - 1) / size < ⌈persistence / size⌉₊ := by
      rw [Nat.lt_ceil, lt_div_iff₀ (by exact_mod_cast hpos)]
      have hmul : (span.length - 1) / size * size < span.length := by
        have := Nat.div_mul_le_self (span.length - 1) size
        omega
      exact lt_of_lt_of_le (by exact_mod_cast hmul) hlength
    have hcard := Finset.card_le_card hsubset
    rw [Nat.card_Icc] at hcard
    rw [touchedChunks]
    split at hsplit <;> omega

end Span

variable {β : Type}

/-- Two sequences of equal length that agree at every position outside some spans. -/
structure AgreeOutside (spans : List Span) (before after : List β) : Prop where
  length_eq : before.length = after.length
  agree : ∀ position, (∀ span ∈ spans, ¬span.Covers position) →
    before[position]? = after[position]?

variable {spans : List Span} {before after : List β} {size : ℕ}

/-- A group that differs has a position that a span covers. -/
theorem AgreeOutside.changed_group (hagree : AgreeOutside spans before after) (hpos : 0 < size)
    {group : ℕ} (hgroup : (groupsOf size before)[group]? ≠ (groupsOf size after)[group]?) :
    ∃ span ∈ spans, group ∈ span.touched size := by
  by_contra hnone
  push Not at hnone
  apply hgroup
  by_cases hlt : group < before.length / size
  · have hlt' : group < after.length / size := by rwa [← hagree.length_eq]
    rw [getElem?_groupsOf hlt, getElem?_groupsOf hlt']
    congr 1
    apply List.ext_getElem?
    intro offset
    rw [List.getElem?_take, List.getElem?_take]
    split
    · next hoffset =>
      rw [List.getElem?_drop, List.getElem?_drop]
      apply hagree.agree
      intro span hspan hcovers
      have hdiv : (group * size + offset) / size = group := by
        rw [Nat.add_comm, Nat.add_mul_div_right _ _ hpos, Nat.div_eq_of_lt hoffset, Nat.zero_add]
      exact hnone span hspan (hdiv ▸ Span.div_mem_touched hcovers size)
    · rfl
  · rw [List.getElem?_eq_none (by rw [length_groupsOf]; omega),
      List.getElem?_eq_none (by rw [length_groupsOf, ← hagree.length_eq]; omega)]

/-- Sequences that agree outside some spans differ in at most as many groups as the spans touch. -/
theorem AgreeOutside.changedCount_groupsOf_le [DecidableEq β]
    (hagree : AgreeOutside spans before after) (hpos : 0 < size) {persistence : ℚ}
    (hspans : ∀ span ∈ spans, (span.length : ℚ) ≤ persistence) :
    changedCount (groupsOf size before) (groupsOf size after) ≤
      spans.length * touchedChunks persistence size := by
  have hsubset : changedPositions (groupsOf size before) (groupsOf size after) ⊆
      spans.toFinset.biUnion fun span => span.touched size := by
    intro group hgroup
    obtain ⟨span, hspan, htouched⟩ := hagree.changed_group hpos (mem_changedPositions.mp hgroup)
    exact Finset.mem_biUnion.mpr ⟨span, List.mem_toFinset.mpr hspan, htouched⟩
  calc
    changedCount (groupsOf size before) (groupsOf size after) ≤
        (spans.toFinset.biUnion fun span => span.touched size).card := Finset.card_le_card hsubset
    _ ≤ spans.toFinset.card * touchedChunks persistence size :=
        Finset.card_biUnion_le_card_mul _ _ _ fun span hspan =>
          Span.card_touched_le hpos (hspans span (List.mem_toFinset.mp hspan))
    _ ≤ spans.length * touchedChunks persistence size :=
        Nat.mul_le_mul_right _ (List.toFinset_card_le spans)

end PrivateFootage
