import Mathlib
import PrivateFootage.Text.Split

/-!
# The pieces of a text

A text is its pieces with a separator between every two of them, so the pieces determine it. The
pieces of two texts with a separator between them are those of the one followed by those of the
other.
-/

namespace PrivateFootage.Text

variable {separator : Char}

/-- A text has a first piece. -/
theorem exists_split_eq_cons (separator : Char) (characters : List Char) :
    ∃ piece pieces, split separator characters = piece :: pieces := by
  induction characters with
  | nil => exact ⟨[], [], rfl⟩
  | cons character rest ih =>
    obtain ⟨piece, pieces, hrest⟩ := ih
    rw [split, hrest]
    split
    · exact ⟨_, _, rfl⟩
    · exact ⟨_, _, rfl⟩

/-- A separator ends an empty piece. -/
@[simp] theorem split_separator (separator : Char) (rest : List Char) :
    split separator (separator :: rest) = [] :: split separator rest := by
  rw [split, if_pos rfl]

/-- Any other character belongs to the first piece. -/
theorem split_cons_of_ne {character : Char} (hdiffers : character ≠ separator) {rest piece : List Char}
    {pieces : List (List Char)} (hrest : split separator rest = piece :: pieces) :
    split separator (character :: rest) = (character :: piece) :: pieces := by
  rw [split, if_neg hdiffers, hrest]

/-- A text has at least one piece. -/
theorem split_ne_nil (separator : Char) (characters : List Char) : split separator characters ≠ [] := by
  obtain ⟨piece, pieces, hsplit⟩ := exists_split_eq_cons separator characters
  rw [hsplit]
  exact List.cons_ne_nil _ _

/-- Two texts with a separator between them have the pieces of both. -/
theorem split_append (separator : Char) (before after : List Char) :
    split separator (before ++ separator :: after) =
      split separator before ++ split separator after := by
  induction before with
  | nil => rw [List.nil_append, split_separator, split, List.singleton_append]
  | cons character before ih =>
    by_cases hsame : character = separator
    · rw [hsame, List.cons_append, split_separator, split_separator, ih, List.cons_append]
    · obtain ⟨piece, pieces, hbefore⟩ := exists_split_eq_cons separator before
      rw [hbefore, List.cons_append] at ih
      rw [List.cons_append, split_cons_of_ne hsame ih, split_cons_of_ne hsame hbefore,
        List.cons_append]

/-- A text without separators is one piece. -/
theorem split_of_notMem {characters : List Char} (hfree : separator ∉ characters) :
    split separator characters = [characters] := by
  induction characters with
  | nil => rfl
  | cons character rest ih =>
    rw [List.mem_cons, not_or] at hfree
    rw [split_cons_of_ne (Ne.symm hfree.1) (ih hfree.2)]

/-- A text without separators in front of another lengthens its first piece. -/
theorem split_append_of_notMem {before : List Char} (hfree : separator ∉ before) {rest piece : List Char}
    {pieces : List (List Char)} (hrest : split separator rest = piece :: pieces) :
    split separator (before ++ rest) = (before ++ piece) :: pieces := by
  induction before with
  | nil => exact hrest
  | cons character before ih =>
    rw [List.mem_cons, not_or] at hfree
    rw [List.cons_append, split_cons_of_ne (Ne.symm hfree.1) (ih hfree.2), List.cons_append]

/-- A text is its pieces with separators between them. -/
theorem intercalate_split (separator : Char) (characters : List Char) :
    [separator].intercalate (split separator characters) = characters := by
  induction characters with
  | nil => rfl
  | cons character rest ih =>
    obtain ⟨piece, pieces, hrest⟩ := exists_split_eq_cons separator rest
    rw [hrest] at ih
    by_cases hsame : character = separator
    · rw [hsame, split_separator, hrest, List.intercalate_cons_cons, ih]
      rfl
    · rw [split_cons_of_ne hsame hrest]
      cases pieces with
      | nil =>
        rw [List.intercalate_singleton] at ih ⊢
        rw [ih]
      | cons second pieces =>
        rw [List.intercalate_cons_cons] at ih ⊢
        rw [List.append_assoc, List.cons_append, ← List.append_assoc, ih]

/-- Pieces without separators are found again. -/
theorem split_intercalate {pieces : List (List Char)} (hpieces : pieces ≠ [])
    (hfree : ∀ piece ∈ pieces, separator ∉ piece) :
    split separator ([separator].intercalate pieces) = pieces := by
  induction pieces with
  | nil => exact absurd rfl hpieces
  | cons piece pieces ih =>
    obtain ⟨hpiece, hfree⟩ := List.forall_mem_cons.mp hfree
    cases pieces with
    | nil => rw [List.intercalate_singleton, split_of_notMem hpiece]
    | cons second pieces =>
      rw [List.intercalate_cons_cons, List.append_assoc, List.singleton_append, split_append,
        split_of_notMem hpiece, ih (List.cons_ne_nil _ _) hfree, List.singleton_append]

/-- The pieces determine the text. -/
theorem split_injective (separator : Char) : Function.Injective (split separator) := by
  intro first second hsame
  rw [← intercalate_split separator first, hsame, intercalate_split]

/-- The first piece starts the text, and every other piece stands behind a separator. -/
theorem split_occurs (separator : Char) (characters : List Char) :
    ∃ first rest, split separator characters = first :: rest ∧ first <+: characters ∧
      ∀ piece ∈ rest, separator :: piece <:+: characters := by
  induction characters with
  | nil => exact ⟨[], [], rfl, List.prefix_rfl, fun piece hpiece => absurd hpiece List.not_mem_nil⟩
  | cons character characters ih =>
    obtain ⟨first, rest, hsplit, hfirst, hrest⟩ := ih
    have hlonger : ∀ piece ∈ rest, separator :: piece <:+: character :: characters :=
      fun piece hpiece => (hrest piece hpiece).trans (List.suffix_cons _ _).isInfix
    by_cases hsame : character = separator
    · refine ⟨[], first :: rest, ?_, List.nil_prefix, ?_⟩
      · rw [hsame, split_separator, hsplit]
      · intro piece hpiece
        rcases List.mem_cons.mp hpiece with rfl | hpiece
        · rw [hsame]
          exact ((List.prefix_cons_inj _).mpr hfirst).isInfix
        · exact hlonger piece hpiece
    · exact ⟨character :: first, rest, split_cons_of_ne hsame hsplit,
        (List.prefix_cons_inj _).mpr hfirst, hlonger⟩

end PrivateFootage.Text
