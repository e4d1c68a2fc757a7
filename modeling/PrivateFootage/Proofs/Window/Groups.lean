import Mathlib
import PrivateFootage.Window

/-!
# Consecutive groups of a list

The groups that windows are made of, and that whole chunks are cut into: the group at a position is
the stretch of the list that starts at that many group sizes. Grouping commutes with any function of
the items, and the groups of a list whose length is a multiple of the size put the list together
again.
-/

namespace PrivateFootage

variable {β γ : Type}

/-- Cutting groups takes stretches of the list, one after the other. -/
theorem cutGroups_eq (size : ℕ) (cut : List (List β)) (count : ℕ) (items : List β) :
    cutGroups size cut count items =
      cut.reverse ++ (List.range count).map fun i => (items.drop (i * size)).take size := by
  induction count generalizing cut items with
  | zero => simp [cutGroups]
  | succ count ih =>
    rw [cutGroups, ih, List.range_succ_eq_map, List.reverse_cons, List.append_assoc]
    simp only [List.map_cons, List.map_map, Nat.zero_mul, List.drop_zero, List.singleton_append,
      List.drop_drop]
    congr 2
    apply List.map_congr_left
    intro i _
    rw [Function.comp_apply, Nat.succ_mul, Nat.add_comm]

/-- The group at a position starts at that many group sizes. -/
theorem groupsOf_eq (size : ℕ) (items : List β) :
    groupsOf size items =
      (List.range (items.length / size)).map fun i => (items.drop (i * size)).take size := by
  rw [groupsOf, cutGroups_eq]
  rfl

/-- There are as many groups as sizes fit into the length. -/
@[simp] theorem length_groupsOf (size : ℕ) (items : List β) :
    (groupsOf size items).length = items.length / size := by
  simp [groupsOf_eq]

/-- The group at a position. -/
theorem getElem?_groupsOf {size : ℕ} {items : List β} {i : ℕ} (hi : i < items.length / size) :
    (groupsOf size items)[i]? = some ((items.drop (i * size)).take size) := by
  rw [groupsOf_eq, List.getElem?_map, List.getElem?_range hi]
  rfl

/-- Grouping commutes with a function of the items. -/
theorem groupsOf_map (size : ℕ) (f : β → γ) (items : List β) :
    groupsOf size (items.map f) = (groupsOf size items).map (List.map f) := by
  simp [groupsOf_eq, List.map_take, List.map_drop]

/-- A list with at least one group starts with it. -/
theorem groupsOf_of_le {size : ℕ} {items : List β} (hpos : 0 < size) (hle : size ≤ items.length) :
    groupsOf size items = items.take size :: groupsOf size (items.drop size) := by
  have hcount : items.length / size = (items.length - size) / size + 1 := by
    rw [← Nat.add_div_right _ hpos, Nat.sub_add_cancel hle]
  rw [groupsOf, hcount, cutGroups, cutGroups_eq, groupsOf_eq, List.length_drop]
  rfl

/-- A list shorter than a group has none. -/
theorem groupsOf_of_lt {size : ℕ} {items : List β} (hlt : items.length < size) :
    groupsOf size items = [] := by
  rw [groupsOf, Nat.div_eq_of_lt hlt]
  rfl

/-- A list of one group is that group. -/
theorem groupsOf_of_eq {size : ℕ} {items : List β} (hpos : 0 < size) (heq : items.length = size) :
    groupsOf size items = [items] := by
  rw [groupsOf_of_le hpos heq.ge, List.take_of_length_le heq.le, List.drop_of_length_le heq.le,
    groupsOf_of_lt hpos]

/-- Every group has the size it was cut to and consists of items of the list. -/
theorem mem_groupsOf {size : ℕ} {items group : List β} (hgroup : group ∈ groupsOf size items) :
    group.length = size ∧ ∀ item ∈ group, item ∈ items := by
  rw [groupsOf_eq] at hgroup
  obtain ⟨i, hi, rfl⟩ := List.mem_map.mp hgroup
  have hfit : (i + 1) * size ≤ items.length :=
    (Nat.mul_le_mul_right size (List.mem_range.mp hi)).trans (Nat.div_mul_le_self _ _)
  rw [Nat.succ_mul] at hfit
  refine ⟨?_, fun item hitem => List.mem_of_mem_drop (List.mem_of_mem_take hitem)⟩
  rw [List.length_take, List.length_drop]
  omega

/-- The groups of a list whose length is a multiple of the size put it together again. -/
theorem flatten_groupsOf {size : ℕ} {items : List β} (hpos : 0 < size)
    (hdvd : size ∣ items.length) : (groupsOf size items).flatten = items := by
  obtain ⟨count, hcount⟩ := hdvd
  induction count generalizing items with
  | zero =>
    rw [List.eq_nil_of_length_eq_zero hcount, groupsOf_of_lt (by simpa using hpos)]
    rfl
  | succ count ih =>
    rw [Nat.mul_succ] at hcount
    rw [groupsOf_of_le hpos (by omega), List.flatten_cons,
      ih (by rw [List.length_drop]; omega), List.take_append_drop]

/-- The groups of a list put together again as much of it as they use up. -/
theorem flatten_groupsOf_take {size : ℕ} (hpos : 0 < size) (items : List β) :
    (groupsOf size items).flatten = items.take (items.length / size * size) := by
  have hused : items.length / size * size ≤ items.length := Nat.div_mul_le_self _ _
  have hlength : (items.take (items.length / size * size)).length = items.length / size * size := by
    rw [List.length_take, Nat.min_eq_left hused]
  have hgroups : groupsOf size items = groupsOf size (items.take (items.length / size * size)) := by
    rw [groupsOf_eq, groupsOf_eq, hlength, Nat.mul_div_cancel _ hpos]
    apply List.map_congr_left
    intro i hi
    have hfit : (i + 1) * size ≤ items.length / size * size :=
      Nat.mul_le_mul_right size (List.mem_range.mp hi)
    rw [Nat.succ_mul] at hfit
    rw [List.drop_take, List.take_take, Nat.min_eq_left (by omega)]
  rw [hgroups, flatten_groupsOf hpos (by rw [hlength]; exact Nat.dvd_mul_left _ _)]

end PrivateFootage
