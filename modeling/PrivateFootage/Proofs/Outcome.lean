import Mathlib
import PrivateFootage.Error

/-!
# Computations that may fail

How a sequence of computations succeeds: one step after another, or one step for each item of a
list.
-/

namespace PrivateFootage

namespace Outcome

variable {β γ δ : Type}

/-- Two steps in a row succeed exactly if the first does and the second does with its value. -/
theorem bind_eq_ok {ε : Type} {step : Except ε β} {next : β → Except ε γ} {result : γ} :
    step >>= next = .ok result ↔ ∃ value, step = .ok value ∧ next value = .ok result := by
  cases step with
  | error error =>
    constructor
    · intro h
      cases h
    · rintro ⟨value, h, -⟩
      cases h
  | ok value =>
    constructor
    · intro h
      exact ⟨value, rfl, h⟩
    · rintro ⟨other, h, hnext⟩
      cases h
      exact hnext

/-- A step with its value changed succeeds exactly if the step does. -/
theorem map_eq_ok {ε : Type} {step : Except ε β} {change : β → γ} {result : γ} :
    step.map change = .ok result ↔ ∃ value, step = .ok value ∧ change value = result := by
  cases step <;> simp [Except.map]

/-- Naming an error differently changes no success. -/
theorem mapError_eq_ok {ε ε' : Type} {step : Except ε β} {rename : ε → ε'} {result : β} :
    step.mapError rename = .ok result ↔ step = .ok result := by
  cases step <;> simp [Except.mapError]

/-- A guard lets the rest through exactly if its condition does not hold. -/
theorem guard_eq_ok {condition : Prop} [Decidable condition] {fault : SettingFault}
    {next : Unit → Outcome γ} {result : γ} :
    (if condition then Outcome.setting fault >>= next else next ()) = .ok result ↔
      ¬condition ∧ next () = .ok result := by
  by_cases h : condition
  · rw [if_pos h, bind_eq_ok]
    simp [h, Outcome.setting]
  · rw [if_neg h]
    simp [h]

/-- A step that succeeds on every item of a list succeeds on the list. -/
theorem mapM_eq_ok {items : List β} {step : β → Outcome γ} {value : β → γ}
    (hstep : ∀ item ∈ items, step item = .ok (value item)) :
    items.mapM step = .ok (items.map value) := by
  induction items with
  | nil => rfl
  | cons item items ih =>
    have hhead := hstep item (List.mem_cons_self ..)
    have htail := ih fun other hother => hstep other (List.mem_cons_of_mem _ hother)
    rw [List.mapM_cons, hhead, htail]
    rfl

/-- Reading items that were all obtained gives them back. -/
theorem mapM_id_ok (items : List β) :
    (items.map Except.ok).mapM id = (.ok items : Outcome (List β)) := by
  have hread : ∀ item ∈ items, (id ∘ Except.ok) item = (.ok (id item) : Outcome β) :=
    fun _ _ => rfl
  rw [List.mapM_map, mapM_eq_ok hread, List.map_id]

/-- Steps over a list succeed exactly if each does, with the values of the single steps in order. -/
theorem mapM_eq_ok_iff {items : List β} {step : β → Outcome γ} {values : List γ} :
    items.mapM step = .ok values ↔
      List.Forall₂ (fun item value => step item = .ok value) items values := by
  induction items generalizing values with
  | nil =>
    rw [List.forall₂_nil_left_iff]
    exact ⟨fun h => (Except.ok.inj h).symm, fun h => h ▸ rfl⟩
  | cons item items ih =>
    rw [List.mapM_cons, bind_eq_ok, List.forall₂_cons_left_iff]
    constructor
    · rintro ⟨value, hvalue, hrest⟩
      obtain ⟨rest, htail, hjoin⟩ := bind_eq_ok.mp hrest
      exact ⟨value, rest, hvalue, ih.mp htail, (Except.ok.inj hjoin).symm⟩
    · rintro ⟨value, rest, hvalue, htail, rfl⟩
      exact ⟨value, hvalue, bind_eq_ok.mpr ⟨rest, ih.mpr htail, rfl⟩⟩

/-- If a step succeeds exactly on the items of a list with a property, and then with a known value,
steps over the list succeed exactly if all items have it, and then with those values. -/
theorem mapM_eq_ok_iff_of_mem {items : List β} {step : β → Outcome γ} {admits : β → Prop}
    {value : β → γ}
    (hstep : ∀ item ∈ items, ∀ result, step item = .ok result ↔ admits item ∧ value item = result)
    {values : List γ} :
    items.mapM step = .ok values ↔ (∀ item ∈ items, admits item) ∧ items.map value = values := by
  rw [mapM_eq_ok_iff]
  induction items generalizing values with
  | nil => simp [eq_comm]
  | cons item items ih =>
    cases values with
    | nil => simp
    | cons result values =>
      rw [List.forall₂_cons, hstep item List.mem_cons_self,
        ih fun other hother => hstep other (List.mem_cons_of_mem _ hother), List.forall_mem_cons,
        List.map_cons, List.cons.injEq]
      tauto

/-- If a step succeeds exactly on the items with a property, and then with a known value, steps over a
list succeed exactly if all items have it, and then with those values. -/
theorem mapM_eq_ok_iff_of {items : List β} {step : β → Outcome γ} {admits : β → Prop} {value : β → γ}
    (hstep : ∀ item result, step item = .ok result ↔ admits item ∧ value item = result)
    {values : List γ} :
    items.mapM step = .ok values ↔ (∀ item ∈ items, admits item) ∧ items.map value = values :=
  mapM_eq_ok_iff_of_mem fun item _ => hstep item

/-- If a step succeeds on the items of a list exactly where an item has a value, and then with it,
steps over the list succeed exactly if all items have one, and then with those values in order. -/
theorem mapM_eq_ok_iff_filterMap {items : List β} {step : β → Outcome γ} {value? : β → Option γ}
    (hstep : ∀ item ∈ items, ∀ value, step item = .ok value ↔ value? item = some value)
    {values : List γ} :
    items.mapM step = .ok values ↔
      (∀ item ∈ items, (value? item).isSome) ∧ items.filterMap value? = values := by
  induction items generalizing values with
  | nil => simp [pure, Except.pure]
  | cons item items ih =>
    have hhead := hstep item List.mem_cons_self
    have htail := @ih fun other hother => hstep other (List.mem_cons_of_mem _ hother)
    rw [List.mapM_cons, bind_eq_ok]
    cases hvalue : value? item with
    | none => simp [hhead, hvalue]
    | some value =>
      simp only [hhead, hvalue, Option.some.injEq, exists_eq_left', bind_eq_ok, htail,
        List.forall_mem_cons, Option.isSome_some, true_and, List.filterMap_cons_some hvalue]
      constructor
      · rintro ⟨rest, ⟨hall, rfl⟩, h⟩
        exact ⟨hall, Except.ok.inj h⟩
      · rintro ⟨hall, rfl⟩
        exact ⟨_, ⟨hall, rfl⟩, rfl⟩

/-- A loop whose steps can fail only while they read an item reads all items first. -/
theorem foldlM_bind_ok (items : List β) (read : β → Outcome γ) (add : δ → γ → δ) (start : δ) :
    (items.foldlM (fun state item => read item >>= fun value => .ok (add state value)) start) =
      items.mapM read >>= fun values => .ok (values.foldl add start) := by
  induction items generalizing start with
  | nil => rfl
  | cons item items ih =>
    rw [List.foldlM_cons, List.mapM_cons]
    cases read item with
    | error error => rfl
    | ok value =>
      refine (ih (add start value)).trans ?_
      cases items.mapM read <;> rfl

/-- What is done to each item with what was read for it can wait until all is read. -/
theorem mapM_bind_ok (items : List β) (read : β → Outcome γ) (finish : β → γ → δ) :
    (items.mapM fun item => read item >>= fun value => .ok (finish item value)) =
      items.mapM read >>= fun values => .ok (List.zipWith finish items values) := by
  induction items with
  | nil => rfl
  | cons item items ih =>
    rw [List.mapM_cons, List.mapM_cons, ih]
    cases read item with
    | error error => rfl
    | ok value => cases items.mapM read <;> rfl

/-- Values that are all read and then finished can be finished as they are read. -/
theorem mapM_bind_map (items : List β) (read : β → Outcome γ) (finish : γ → δ) :
    (items.mapM read >>= fun values => .ok (values.map finish)) =
      items.mapM fun item => read item >>= fun value => .ok (finish value) := by
  induction items with
  | nil => rfl
  | cons item items ih =>
    rw [List.mapM_cons, List.mapM_cons, ← ih]
    cases read item with
    | error error => rfl
    | ok value => cases items.mapM read <;> rfl

/-- Steps over a list fail exactly if one of them does. -/
theorem mapM_fails_iff {items : List β} (step : β → Outcome γ) :
    (∃ error, items.mapM step = .error error) ↔ ∃ item ∈ items, ∃ error, step item = .error error := by
  induction items with
  | nil =>
    constructor
    · rintro ⟨error, h⟩
      cases h
    · rintro ⟨item, hitem, -⟩
      cases hitem
  | cons item items ih =>
    rw [List.mapM_cons]
    simp only [List.mem_cons, exists_eq_or_imp]
    cases hstep : step item with
    | error error => exact ⟨fun _ => .inl ⟨error, rfl⟩, fun _ => ⟨error, rfl⟩⟩
    | ok value =>
      rw [← ih]
      cases items.mapM step with
      | error error => exact ⟨fun _ => .inr ⟨error, rfl⟩, fun _ => ⟨error, rfl⟩⟩
      | ok values =>
        constructor
        · rintro ⟨error, h⟩
          cases h
        · rintro (⟨error, h⟩ | ⟨error, h⟩) <;> cases h

/-- A computation fails exactly if it does not succeed. -/
theorem fails_iff {outcome : Outcome β} :
    (∃ error, outcome = .error error) ↔ ∀ value, outcome ≠ .ok value := by
  cases outcome with
  | error error =>
    constructor
    · intro _ value h
      cases h
    · exact fun _ => ⟨error, rfl⟩
  | ok value =>
    constructor
    · rintro ⟨error, h⟩
      cases h
    · intro h
      exact absurd rfl (h value)

end Outcome

end PrivateFootage
