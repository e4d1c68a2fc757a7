import Mathlib
import PrivateFootage.Cache
import PrivateFootage.Proofs.Decimal.Digits
import PrivateFootage.Proofs.Text.Split

/-!
# Keys of stored results tell sequences apart

A key is read in its pieces between low lines. The piece with the chunk length starts with `FPC-`; if a
descriptor holds no such mark behind a low line, it is the last piece that does, save for the first
piece of the descriptor. That one follows a piece with a number, while the chunk length follows the
tag of a rendition. So the chunk length is found, the tag before it and the descriptor behind it, and
no tag ends another.
-/

namespace PrivateFootage

open Text

/-- The characters before the chunk length in a key. -/
def lengthMark : List Char := ['F', 'P', 'C', '-']

/-- The characters before the number of regions in a key. -/
def regionsMark : List Char := ['N', 'S', 'P', 'L', 'I', 'T', '-']

/-- A descriptor that holds neither mark of a key behind a low line. -/
structure MarkFree (descriptor : String) : Prop where
  length : ¬ '_' :: lengthMark <:+: descriptor.toList
  regions : ¬ '_' :: regionsMark <:+: descriptor.toList

/-- The pieces of a text between low lines. -/
abbrev piecesOf (text : String) : List (List Char) := split '_' text.toList

/-- The piece of a key for the number of regions. -/
def regionsPieces (rendition : Rendition) (splitCount : Option ℕ) : List (List Char) :=
  match rendition.isSplit, splitCount with
  | true, some splits => [regionsMark ++ Decimal.digitChars splits]
  | _, _ => []

/-- A mark with a number behind it is one piece. -/
theorem split_mark_append {mark : List Char} (hmark : '_' ∉ mark) (number : ℕ) :
    split '_' (mark ++ Decimal.digitChars number) = [mark ++ Decimal.digitChars number] := by
  apply split_of_notMem
  rw [List.mem_append, not_or]
  exact ⟨hmark, Decimal.notMem_digitChars (by decide) _⟩

/-- The pieces of a key. -/
theorem piecesOf_cacheKey (video : String) (rendition : Rendition) (framesPerChunk : ℕ)
    (descriptor : String) (splitCount : Option ℕ) :
    piecesOf (cacheKey video rendition framesPerChunk descriptor splitCount) =
      (piecesOf video ++ piecesOf rendition.tag) ++
        (lengthMark ++ Decimal.digitChars framesPerChunk) ::
          (piecesOf descriptor ++ regionsPieces rendition splitCount) := by
  have hbase : (s!"{video}_{rendition.tag}_FPC-{framesPerChunk}_{descriptor}").toList =
      video.toList ++ '_' :: (rendition.tag.toList ++ '_' ::
        ((lengthMark ++ Decimal.digitChars framesPerChunk) ++ '_' :: descriptor.toList)) := by
    simp [toString, Nat.repr_eq_ofList_toDigits, lengthMark, Decimal.digitChars]
  have hpieces : split '_' (s!"{video}_{rendition.tag}_FPC-{framesPerChunk}_{descriptor}").toList =
      piecesOf video ++ (piecesOf rendition.tag ++
        (lengthMark ++ Decimal.digitChars framesPerChunk) :: piecesOf descriptor) := by
    rw [hbase, split_append, split_append, split_append, split_mark_append (by decide),
      List.singleton_append]
  have hlonger : ∀ (base : String) (splits : ℕ), (s!"{base}_NSPLIT-{splits}").toList =
      base.toList ++ '_' :: (regionsMark ++ Decimal.digitChars splits) := by
    intro base splits
    simp [toString, Nat.repr_eq_ofList_toDigits, regionsMark, Decimal.digitChars]
  unfold cacheKey regionsPieces piecesOf
  cases hsplit : rendition.isSplit with
  | false =>
    dsimp only
    rw [hpieces, List.append_nil, List.append_assoc]
  | true =>
    cases splitCount with
    | none =>
      dsimp only
      rw [hpieces, List.append_nil, List.append_assoc]
    | some splits =>
      dsimp only
      rw [hlonger, split_append, hpieces, split_mark_append (by decide)]
      simp only [List.append_assoc, List.cons_append]

/-- Nothing stands between two marked items if at most the item right behind the first is marked as well,
and never the one right before the second. -/
theorem eq_nil_of_marked {β : Type} {marked : β → Prop} {first between rest rest' : List β}
    {item item' : β} (hitem : marked item) (hitem' : marked item')
    (hbefore : ∀ last ∈ (first ++ between).getLast?, ¬marked last)
    (hafter : ∀ other ∈ rest.tail, ¬marked other) (hrest : item :: rest = between ++ item' :: rest') :
    between = [] := by
  cases between with
  | nil => rfl
  | cons head between =>
    rw [List.cons_append, List.cons.injEq] at hrest
    obtain ⟨rfl, hrest⟩ := hrest
    cases between with
    | nil =>
      rw [List.getLast?_append_cons] at hbefore
      exact absurd hitem (hbefore item rfl)
    | cons next between =>
      rw [hrest] at hafter
      exact absurd hitem' (hafter item' (by simp))

/-- Two lists are alike before, at and behind a marked item if at most the item right behind it is
marked as well, and never the one right before it. -/
theorem append_cons_inj_of_marked {β : Type} (marked : β → Prop) {before before' after after' : List β}
    {item item' : β} (hitem : marked item) (hitem' : marked item')
    (hbefore : ∀ last ∈ before.getLast?, ¬marked last) (hbefore' : ∀ last ∈ before'.getLast?, ¬marked last)
    (hafter : ∀ other ∈ after.tail, ¬marked other) (hafter' : ∀ other ∈ after'.tail, ¬marked other)
    (hsame : before ++ item :: after = before' ++ item' :: after') :
    before = before' ∧ item = item' ∧ after = after' := by
  rcases List.append_eq_append_iff.mp hsame with ⟨between, rfl, hrest⟩ | ⟨between, rfl, hrest⟩
  · obtain rfl := eq_nil_of_marked hitem hitem' hbefore' hafter hrest
    rw [List.nil_append, List.cons.injEq] at hrest
    exact ⟨(List.append_nil _).symm, hrest.1, hrest.2⟩
  · obtain rfl := eq_nil_of_marked hitem' hitem hbefore hafter' hrest
    rw [List.nil_append, List.cons.injEq] at hrest
    exact ⟨List.append_nil _, hrest.1.symm, hrest.2.symm⟩

/-- No tag ends another. -/
theorem eq_of_tag_suffix {rendition rendition' : Rendition}
    (hends : piecesOf rendition.tag <:+ piecesOf rendition'.tag) : rendition = rendition' := by
  revert hends
  cases rendition <;> cases rendition' <;> decide

/-- The tag of a rendition is found at the end of a list of pieces. -/
theorem append_tag_inj {before before' : List (List Char)} {rendition rendition' : Rendition}
    (hsame : before ++ piecesOf rendition.tag = before' ++ piecesOf rendition'.tag) :
    before = before' ∧ rendition = rendition' := by
  have hrendition : rendition = rendition' := by
    rcases List.append_eq_append_iff.mp hsame with ⟨between, -, htag⟩ | ⟨between, -, htag⟩
    · exact (eq_of_tag_suffix ⟨between, htag.symm⟩).symm
    · exact eq_of_tag_suffix ⟨between, htag.symm⟩
  subst hrendition
  exact ⟨List.append_cancel_right hsame, rfl⟩

/-- No piece of a descriptor but the first starts with a mark that the descriptor is free of. -/
theorem not_prefix_of_mem_tail {mark : List Char} {text : String} (hfree : ¬ '_' :: mark <:+: text.toList)
    {piece : List Char} (hpiece : piece ∈ (piecesOf text).tail) : ¬mark <+: piece := by
  intro hprefix
  obtain ⟨first, rest, hsplit, -, hrest⟩ := split_occurs '_' text.toList
  rw [piecesOf, hsplit, List.tail_cons] at hpiece
  exact hfree (((List.prefix_cons_inj _).mpr hprefix).isInfix.trans (hrest piece hpiece))

/-- A descriptor and a number of regions are told apart by the pieces of both. -/
theorem regionsPieces_inj {descriptor descriptor' : String} (hfree : MarkFree descriptor)
    (hfree' : MarkFree descriptor') {rendition : Rendition} {splitCount splitCount' : Option ℕ}
    (hsame : piecesOf descriptor ++ regionsPieces rendition splitCount =
      piecesOf descriptor' ++ regionsPieces rendition splitCount') :
    descriptor = descriptor' ∧ (rendition.isSplit = true → splitCount = splitCount') := by
  have hinjective : ∀ {first second : String}, piecesOf first = piecesOf second → first = second :=
    fun h => String.toList_injective (split_injective '_' h)
  -- A last piece with the mark would belong to the descriptor, behind a low line.
  have hmarked : ∀ {first second : String} {splits : ℕ}, MarkFree second →
      piecesOf first ++ [regionsMark ++ Decimal.digitChars splits] = piecesOf second → False := by
    intro first second splits hsecond hlonger
    have hlast : regionsMark ++ Decimal.digitChars splits ∈ (piecesOf second).tail := by
      rw [← hlonger, List.tail_append_of_ne_nil (split_ne_nil _ _)]
      exact List.mem_append_right _ (List.mem_singleton_self _)
    exact not_prefix_of_mem_tail hsecond.regions hlast (List.prefix_append _ _)
  unfold regionsPieces at hsame
  cases hsplit : rendition.isSplit with
  | false =>
    simp only [hsplit, List.append_nil] at hsame
    exact ⟨hinjective hsame, fun h => absurd h (by simp)⟩
  | true =>
    simp only [hsplit] at hsame
    cases splitCount with
    | none =>
      cases splitCount' with
      | none =>
        simp only [List.append_nil] at hsame
        exact ⟨hinjective hsame, fun _ => rfl⟩
      | some splits' =>
        simp only [List.append_nil] at hsame
        exact absurd hsame.symm (hmarked hfree)
    | some splits =>
      cases splitCount' with
      | none =>
        simp only [List.append_nil] at hsame
        exact absurd hsame (hmarked hfree')
      | some splits' =>
        obtain ⟨hdescriptor, hlast⟩ := List.append_inj' hsame rfl
        rw [List.cons.injEq] at hlast
        have hcount := Decimal.digitChars_injective (List.append_cancel_left hlast.1)
        exact ⟨hinjective hdescriptor, fun _ => congrArg some hcount⟩

/-- What a key says: equal keys have the same video, rendition, chunk length and descriptor, and the
same number of regions if there are regions. -/
theorem cacheKey_inj {video video' descriptor descriptor' : String} {rendition rendition' : Rendition}
    {framesPerChunk framesPerChunk' : ℕ} {splitCount splitCount' : Option ℕ}
    (hfree : MarkFree descriptor) (hfree' : MarkFree descriptor')
    (hsame : cacheKey video rendition framesPerChunk descriptor splitCount =
      cacheKey video' rendition' framesPerChunk' descriptor' splitCount') :
    video = video' ∧ rendition = rendition' ∧ framesPerChunk = framesPerChunk' ∧
      descriptor = descriptor' ∧ (rendition.isSplit = true → splitCount = splitCount') := by
  have hpieces := congrArg piecesOf hsame
  rw [piecesOf_cacheKey, piecesOf_cacheKey] at hpieces
  have hbefore : ∀ (video : String) (rendition : Rendition),
      ∀ last ∈ (piecesOf video ++ piecesOf rendition.tag).getLast?, ¬lengthMark <+: last := by
    intro video rendition last hlast
    have htag : ∀ last ∈ (piecesOf rendition.tag).getLast?, ¬lengthMark <+: last := by
      cases rendition <;> decide
    rw [List.getLast?_append_of_ne_nil _ (split_ne_nil _ _)] at hlast
    exact htag last hlast
  have hafter : ∀ {descriptor : String}, MarkFree descriptor → ∀ rendition splitCount,
      ∀ other ∈ (piecesOf descriptor ++ regionsPieces rendition splitCount).tail,
        ¬lengthMark <+: other := by
    intro descriptor hfree rendition splitCount other hother
    rw [List.tail_append_of_ne_nil (split_ne_nil _ _), List.mem_append] at hother
    rcases hother with hother | hother
    · exact not_prefix_of_mem_tail hfree.length hother
    · unfold regionsPieces at hother
      split at hother
      · rw [List.mem_singleton] at hother
        rw [hother]
        simp [lengthMark, regionsMark]
      · exact absurd hother List.not_mem_nil
  obtain ⟨hhead, hlength, htail⟩ := append_cons_inj_of_marked (lengthMark <+: ·)
    (List.prefix_append _ _) (List.prefix_append _ _) (hbefore _ _) (hbefore _ _)
    (hafter hfree _ _) (hafter hfree' _ _) hpieces
  obtain ⟨hvideo, rfl⟩ := append_tag_inj hhead
  obtain ⟨hdescriptor, hcount⟩ := regionsPieces_inj hfree hfree' htail
  exact ⟨String.toList_injective (split_injective '_' hvideo), rfl,
    Decimal.digitChars_injective (List.append_cancel_left hlength), hdescriptor, hcount⟩

end PrivateFootage
