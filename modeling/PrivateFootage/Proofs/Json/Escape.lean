import Mathlib
import PrivateFootage.Json.Escape
import PrivateFootage.Json.Parser

/-!
# Escaped texts are string literals

What a text is escaped to contains no quotation mark and no control character that is not escaped, so
the scanner takes it whole as the inside of one string. Undoing the escapes gives the text back,
whatever characters it has.
-/

namespace PrivateFootage.Json

/-- A control character is the one behind its four-digit code. -/
theorem hexCode?_hexDigit {code : ℕ} (hcode : code < 0x20) :
    hexCode? '0' '0' (hexDigit (code / 16)) (hexDigit (code % 16)) = some code := by
  have hall : ∀ code < 0x20,
      hexCode? '0' '0' (hexDigit (code / 16)) (hexDigit (code % 16)) = some code := by decide
  exact hall code hcode

/-- How a character is escaped: by a letter, by its code, or not at all. -/
theorem escapeChar_cases (character : Char) :
    (∃ letter, letter ≠ 'u' ∧ escapedChar? letter = some character ∧
      escapeChar character = ['\\', letter]) ∨
    (character.toNat < 0x20 ∧ escapeChar character =
      ['\\', 'u', '0', '0', hexDigit (character.toNat / 16), hexDigit (character.toNat % 16)]) ∨
    (character ≠ '"' ∧ character ≠ '\\' ∧ ¬character.toNat < 0x20 ∧
      escapeChar character = [character]) := by
  have hnat : ∀ code, character.toNat = code → character = Char.ofNat code := by
    rintro code rfl
    exact (Char.ofNat_toNat character).symm
  unfold escapeChar
  split
  · exact .inl ⟨'"', by decide, rfl, rfl⟩
  · exact .inl ⟨'\\', by decide, rfl, rfl⟩
  · exact .inl ⟨'n', by decide, rfl, rfl⟩
  · exact .inl ⟨'r', by decide, rfl, rfl⟩
  · exact .inl ⟨'t', by decide, rfl, rfl⟩
  · next hquote hbackslash _ _ _ =>
    dsimp only
    split_ifs with hb hf hcontrol
    · exact .inl ⟨'b', by decide, by rw [hnat _ hb]; rfl, rfl⟩
    · exact .inl ⟨'f', by decide, by rw [hnat _ hf]; rfl, rfl⟩
    · exact .inr (.inl ⟨hcontrol, rfl⟩)
    · exact .inr (.inr ⟨hquote, hbackslash, hcontrol, rfl⟩)

/-! ### Undoing escapes -/

/-- Undoing the escape of a character reads the character. -/
theorem unescapeFrom_escapeChar (read rest : List Char) (character : Char) :
    unescapeFrom read none (escapeChar character ++ rest) =
      unescapeFrom (character :: read) none rest := by
  rcases escapeChar_cases character with ⟨letter, hletter, hescaped, h⟩ | ⟨hcontrol, h⟩ |
    ⟨-, hbackslash, -, h⟩
  · rw [h, List.cons_append, List.cons_append, List.nil_append, unescapeFrom]
    · intro a b c d rest' hu
      exact absurd hu hletter
    · exact hescaped
  · have hcode := unescapeFrom.eq_3 read _ _ _ _ rest _ (hexCode?_hexDigit hcontrol)
    rw [if_neg (by omega), if_neg (by omega), Char.ofNat_toNat] at hcode
    rw [h]
    exact hcode
  · rw [h, List.singleton_append, unescapeFrom]
    · simp [hbackslash]
    · intro a b c d rest' hback
      exact absurd hback hbackslash
    · intro letter rest' hback
      exact absurd hback hbackslash

/-- Every text is read back from its literal. -/
theorem unescape?_escape (characters : List Char) : unescape? (escape characters) = some characters := by
  have hread : ∀ read : List Char,
      unescapeFrom read none (escape characters) = some (read.reverse ++ characters) := by
    induction characters with
    | nil =>
      intro read
      simp [escape, unescapeFrom]
    | cons character characters ih =>
      intro read
      rw [escape, List.flatMap_cons, unescapeFrom_escapeChar, ← escape, ih]
      simp
  exact hread []

/-! ### Scanning -/

/-- A literal that the scanner takes as the inside of one string. -/
def IsStringLiteral (literal : List Char) : Prop :=
  ∀ (read : List Char) (tokens : List Token),
    literal.foldlM Scan.step ⟨.inString read, tokens⟩ =
      some ⟨.inString (literal.reverse ++ read), tokens⟩

/-- Both digits of a control character's code are hexadecimal. -/
theorem hexValue?_hexDigit {value : ℕ} (hvalue : value < 16) :
    (hexValue? (hexDigit value)).isNone = false := by
  have hall : ∀ value < 16, (hexValue? (hexDigit value)).isNone = false := by decide
  exact hall value hvalue

/-- An escape letter is one that the scanner lets follow a backslash. -/
theorem mem_letters_of_escapedChar? {letter character : Char}
    (hletter : escapedChar? letter = some character) :
    "\"\\/bfnrt".toList.contains letter = true := by
  unfold escapedChar? at hletter
  split at hletter <;> first | decide | cases hletter

/-- The literals of texts one after another make a literal. -/
theorem IsStringLiteral.append {first second : List Char} (hfirst : IsStringLiteral first)
    (hsecond : IsStringLiteral second) : IsStringLiteral (first ++ second) := by
  intro read tokens
  rw [List.foldlM_append, hfirst, Option.bind_eq_bind, Option.bind_some, hsecond,
    List.reverse_append, List.append_assoc]

/-- The escape of one character is a literal. -/
theorem isStringLiteral_escapeChar (character : Char) : IsStringLiteral (escapeChar character) := by
  intro read tokens
  rcases escapeChar_cases character with ⟨letter, hletter, hescaped, h⟩ | ⟨hcontrol, h⟩ |
    ⟨hquote, hbackslash, hcontrol, h⟩
  · have hmem := mem_letters_of_escapedChar? hescaped
    have hback : Scan.step ⟨.inString read, tokens⟩ '\\' =
        some ⟨.afterBackslash ('\\' :: read), tokens⟩ := rfl
    have hnext : Scan.step ⟨.afterBackslash ('\\' :: read), tokens⟩ letter =
        some ⟨.inString (letter :: '\\' :: read), tokens⟩ := by
      rw [Scan.step]
      dsimp only
      rw [if_neg hletter, if_pos hmem]
    rw [h]
    simp [hback, hnext]
  · have hdigit : ∀ (missing : ℕ) (literal : List Char) (value : ℕ), value < 16 →
        Scan.step ⟨.inCode (missing + 2) literal, tokens⟩ (hexDigit value) =
            some ⟨.inCode (missing + 1) (hexDigit value :: literal), tokens⟩ ∧
          Scan.step ⟨.inCode 1 literal, tokens⟩ (hexDigit value) =
            some ⟨.inString (hexDigit value :: literal), tokens⟩ := by
      intro missing literal value hvalue
      simp [Scan.step, hexValue?_hexDigit hvalue]
    have hback : Scan.step ⟨.inString read, tokens⟩ '\\' =
        some ⟨.afterBackslash ('\\' :: read), tokens⟩ := rfl
    have hcode : Scan.step ⟨.afterBackslash ('\\' :: read), tokens⟩ 'u' =
        some ⟨.inCode 4 ('u' :: '\\' :: read), tokens⟩ := rfl
    have hzero := fun missing literal => (hdigit missing literal 0 (by decide)).1
    have hhigh := fun missing literal => (hdigit missing literal (character.toNat / 16) (by omega)).1
    have hlow := fun literal => (hdigit 0 literal (character.toNat % 16) (by omega)).2
    change ∀ missing literal, Scan.step ⟨.inCode (missing + 2) literal, tokens⟩ '0' =
      some ⟨.inCode (missing + 1) ('0' :: literal), tokens⟩ at hzero
    rw [h]
    simp [hback, hcode, hzero, hhigh, hlow]
  · rw [h]
    simp [Scan.step, hquote, hbackslash, hcontrol]

/-- What a text is escaped to is a literal. -/
theorem isStringLiteral_escape (characters : List Char) : IsStringLiteral (escape characters) := by
  induction characters with
  | nil => exact fun read tokens => rfl
  | cons character characters ih =>
    rw [escape, List.flatMap_cons]
    exact (isStringLiteral_escapeChar character).append ih

end PrivateFootage.Json
