import Mathlib

/-!
# Greedy choice

Items are gone through in a strict order, and the next one is chosen unless one that is chosen already
blocks it. Which items that gives can be said without the walk: an item is left out exactly if a chosen item
before it blocks it. No other choice is like that. The same items are chosen by taking the first one, dropping
what it blocks, and going on with what is left.
-/

namespace PrivateFootage

variable {β γ : Type} {before : β → β → Prop} {blocks : β → β → Bool}

/-- Choose the next item unless a chosen one blocks it. The last one that was chosen comes first. -/
def greedily (blocks : β → β → Bool) (chosen : List β) (next : β) : List β :=
  if chosen.any fun other => blocks other next then chosen else next :: chosen

/-- A choice among items is greedy: what is left out is what a chosen item before it blocks. -/
structure IsGreedy (before : β → β → Prop) (blocks : β → β → Bool) (items chosen : Set β) : Prop where
  subset : chosen ⊆ items
  notMem_iff : ∀ item ∈ items, item ∉ chosen ↔ ∃ other ∈ chosen, before other item ∧ blocks other item = true

/-- The chosen items, the first one first, are some of the items in order. -/
theorem reverse_foldl_greedily_sublist (blocks : β → β → Bool) (items : List β) :
    (items.foldl (greedily blocks) []).reverse.Sublist items := by
  induction items using List.reverseRecOn with
  | nil => exact List.Sublist.refl _
  | append_singleton items next ih =>
    rw [List.foldl_append, List.foldl_cons, List.foldl_nil, greedily]
    split_ifs
    · exact ih.trans (List.sublist_append_left _ _)
    · rw [List.reverse_cons]
      exact ih.append (List.Sublist.refl _)

/-- What is chosen is among the items. -/
theorem mem_of_mem_foldl_greedily {items : List β} {item : β}
    (hitem : item ∈ items.foldl (greedily blocks) []) : item ∈ items :=
  (reverse_foldl_greedily_sublist blocks items).subset (List.mem_reverse.mpr hitem)

/-- The next item is chosen unless a chosen one blocks it, and the others stay as they were. -/
theorem mem_greedily {chosen : List β} {next item : β} :
    item ∈ greedily blocks chosen next ↔
      item ∈ chosen ∨ item = next ∧ ∀ other ∈ chosen, blocks other next = false := by
  unfold greedily
  split_ifs with hblocked
  · obtain ⟨other, hother, hblocks⟩ := List.any_eq_true.mp hblocked
    constructor
    · exact .inl
    · rintro (hchosen | ⟨-, hfree⟩)
      · exact hchosen
      · rw [hfree other hother] at hblocks
        cases hblocks
  · have hfree : ∀ other ∈ chosen, blocks other next = false := by
      simpa using hblocked
    rw [List.mem_cons, or_comm]
    exact or_congr_right (and_iff_left hfree).symm

/-- Going through items in a strict order makes a greedy choice. -/
theorem isGreedy_foldl_greedily [IsStrictOrder β before] {items : List β} (hitems : items.Pairwise before) :
    IsGreedy before blocks {item | item ∈ items} {item | item ∈ items.foldl (greedily blocks) []} := by
  refine ⟨fun item => mem_of_mem_foldl_greedily, ?_⟩
  induction items using List.reverseRecOn with
  | nil => simp
  | append_singleton items next ih =>
    obtain ⟨hitems, -, hnext⟩ := List.pairwise_append.mp hitems
    have hlast : ∀ item ∈ items, before item next := fun item hitem => hnext item hitem next (by simp)
    have hchosen : ∀ {item}, item ∈ items.foldl (greedily blocks) [] → before item next :=
      fun hitem => hlast _ (mem_of_mem_foldl_greedily hitem)
    intro item hitem
    simp only [List.foldl_append, List.foldl_cons, List.foldl_nil, Set.mem_ofPred_eq, mem_greedily]
    rcases List.mem_append.mp hitem with hearlier | hsame
    -- An item further ahead was settled before, and the new one, which follows it, does not block it.
    · have hne : item ≠ next := fun heq => irrefl next (heq ▸ hlast item hearlier)
      have hlate : ¬before next item := asymm (hlast item hearlier)
      rw [or_iff_left (fun h => hne h.1)]
      refine (ih hitems item hearlier).trans (exists_congr fun other => ?_)
      constructor
      · exact fun h => ⟨.inl h.1, h.2⟩
      · rintro ⟨hother | ⟨rfl, -⟩, hbefore, hblocks⟩
        · exact ⟨hother, hbefore, hblocks⟩
        · exact absurd hbefore hlate
    · obtain rfl := List.mem_singleton.mp hsame
      have hnew : item ∉ items.foldl (greedily blocks) [] := fun h => irrefl item (hchosen h)
      rw [or_iff_right hnew]
      constructor
      · intro hleft
        by_contra hnone
        refine hleft ⟨rfl, fun other hother => Bool.eq_false_iff.mpr fun hblocks => hnone ?_⟩
        exact ⟨other, .inl hother, hchosen hother, hblocks⟩
      · rintro ⟨other, hother | ⟨rfl, -⟩, hbefore, hblocks⟩ ⟨-, hfree⟩
        · rw [hfree other hother] at hblocks
          cases hblocks
        · exact irrefl other hbefore

/-- There is one greedy choice. -/
theorem IsGreedy.eq [IsStrictOrder β before] {items chosen chosen' : Set β} (hfinite : items.Finite)
    (hchosen : IsGreedy before blocks items chosen) (hchosen' : IsGreedy before blocks items chosen') :
    chosen = chosen' := by
  have hagree : ∀ item ∈ items, (item ∈ chosen ↔ item ∈ chosen') := by
    intro item hitem
    -- Two choices agree on an item if they agree on the items before it.
    refine (hfinite.wellFoundedOn (r := before)).induction hitem
      (P := fun item => item ∈ chosen ↔ item ∈ chosen') fun item hitem ih => ?_
    rw [← not_iff_not, hchosen.notMem_iff item hitem, hchosen'.notMem_iff item hitem]
    refine exists_congr fun other => ?_
    constructor
    · rintro ⟨hother, hbefore, hblocks⟩
      exact ⟨(ih other (hchosen.subset hother) hbefore).mp hother, hbefore, hblocks⟩
    · rintro ⟨hother, hbefore, hblocks⟩
      exact ⟨(ih other (hchosen'.subset hother) hbefore).mpr hother, hbefore, hblocks⟩
  ext item
  constructor
  · exact fun h => (hagree item (hchosen.subset h)).mp h
  · exact fun h => (hagree item (hchosen'.subset h)).mpr h

/-! ### Dropping what is blocked -/

/-- Choose the first item, drop the items that it blocks, and go on with those that are left. -/
def dropBlocked (blocks : β → β → Bool) : List β → List β
  | [] => []
  | best :: rest => best :: dropBlocked blocks (rest.filter fun item => !blocks best item)
termination_by items => items.length
decreasing_by simpa using List.length_filter_le _ rest.attach

/-- From here on, the walk chooses as if the items that are blocked by now had been dropped. -/
theorem reverse_foldl_greedily (chosen items : List β) :
    (items.foldl (greedily blocks) chosen).reverse = chosen.reverse ++
      dropBlocked blocks (items.filter fun item => !chosen.any fun other => blocks other item) := by
  induction items generalizing chosen with
  | nil => simp [dropBlocked]
  | cons next items ih =>
    rw [List.foldl_cons, greedily, ih]
    by_cases hblocked : (chosen.any fun other => blocks other next) = true
    · rw [if_pos hblocked, List.filter_cons_of_neg (by simpa using hblocked)]
    · rw [if_neg hblocked, List.filter_cons_of_pos (by simpa using hblocked), dropBlocked, List.filter_filter,
        List.reverse_cons, List.append_assoc, List.singleton_append]
      simp only [List.any_cons, Bool.not_or]

/-- Dropping what is blocked chooses what the walk chooses. -/
theorem dropBlocked_eq (items : List β) :
    dropBlocked blocks items = (items.foldl (greedily blocks) []).reverse := by
  simp [reverse_foldl_greedily]

/-- Everything is chosen if nothing blocks what comes after it. -/
theorem dropBlocked_of_free {items : List β} (hfree : items.Pairwise fun a b => blocks a b = false) :
    dropBlocked blocks items = items := by
  induction items with
  | nil => simp [dropBlocked]
  | cons best rest ih =>
    obtain ⟨hbest, hrest⟩ := List.pairwise_cons.mp hfree
    have hkept : (rest.filter fun item => !blocks best item) = rest :=
      List.filter_eq_self.mpr fun item hitem => by simp [hbest item hitem]
    rw [dropBlocked, hkept, ih hrest]

/-- What is chosen depends on labels only if labels tell what is blocked. -/
theorem map_dropBlocked {blocks : γ → γ → Bool} (label : β → γ) (items : List β) :
    (dropBlocked (fun a b => blocks (label a) (label b)) items).map label =
      dropBlocked blocks (items.map label) := by
  induction hlength : items.length using Nat.strong_induction_on generalizing items with
  | _ length ih =>
    cases items with
    | nil => simp [dropBlocked]
    | cons best rest =>
      have hshorter : (rest.filter fun item => !blocks (label best) (label item)).length < length := by
        rw [← hlength]
        exact Nat.lt_succ_of_le (List.length_filter_le _ _)
      rw [dropBlocked, List.map_cons, ih _ hshorter _ rfl, List.map_cons, dropBlocked, List.filter_map]
      rfl

end PrivateFootage
