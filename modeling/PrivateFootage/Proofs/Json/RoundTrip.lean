import Mathlib
import PrivateFootage.Json.Printer
import PrivateFootage.Proofs.Json.Escape

/-!
# Written values are read back

Writing lays a value out as tokens with blanks between some of them. In both layouts a number or a word
stands after a bracket, a comma, a colon or a blank, and one of these or the end of the text follows
it. So scanning the text finds the tokens that were laid out, and building follows the nesting of the
value. Every value with proper number and string literals is read back from its text.
-/

namespace PrivateFootage.Json

/-- A value whose literals are literals of the format. -/
inductive WellFormed : Json → Prop
  | null : WellFormed .null
  | bool (value : Bool) : WellFormed (.bool value)
  | number {literal : List Char} (hliteral : isNumber literal = true) : WellFormed (.number literal)
  | string {literal : List Char} (hliteral : IsStringLiteral literal) : WellFormed (.string literal)
  | array {items : List Json} (hitems : ∀ item ∈ items, WellFormed item) : WellFormed (.array items)
  | object {members : List (List Char × Json)} (hnames : ∀ member ∈ members, IsStringLiteral member.1)
      (hvalues : ∀ member ∈ members, WellFormed member.2) : WellFormed (.object members)

mutual

/-- The tokens of a value. -/
def tokensOf : Json → List Token
  | .null => [.word "null".toList]
  | .bool true => [.word "true".toList]
  | .bool false => [.word "false".toList]
  | .number literal => [.number literal]
  | .string literal => [.string literal]
  | .array [] => [.openArray, .closeArray]
  | .array (first :: rest) => .openArray :: tokensOf first ++ itemTokens rest ++ [.closeArray]
  | .object [] => [.openObject, .closeObject]
  | .object ((name, value) :: rest) =>
    .openObject :: .string name :: .colon :: tokensOf value ++ memberTokens rest ++ [.closeObject]

/-- The tokens of the items after the first of an array. -/
def itemTokens : List Json → List Token
  | [] => []
  | item :: rest => .comma :: tokensOf item ++ itemTokens rest

/-- The tokens of the members after the first of an object. -/
def memberTokens : List (List Char × Json) → List Token
  | [] => []
  | (name, value) :: rest => .comma :: .string name :: .colon :: tokensOf value ++ memberTokens rest

end

/-! ### Number literals -/

/-- What is dropped in front of the rest consists of characters of numbers. -/
def DropsNumberChars (drop : List Char → Option (List Char)) : Prop :=
  ∀ characters rest, drop characters = some rest →
    ∃ front, characters = front ++ rest ∧ ∀ character ∈ front, isNumberChar character = true

/-- Digits are characters of numbers. -/
theorem isNumberChar_of_isDigit {character : Char} (hdigit : character.isDigit = true) :
    isNumberChar character = true := by
  simp [isNumberChar, hdigit]

/-- A run of digits is dropped from the front, and it is not empty. -/
theorem dropDigits?_eq_some {characters rest : List Char} (hdrop : dropDigits? characters = some rest) :
    ∃ first digits, characters = first :: digits ++ rest ∧ first.isDigit = true ∧
      ∀ digit ∈ digits, digit.isDigit = true := by
  cases characters with
  | nil => cases hdrop
  | cons first others =>
    rw [dropDigits?] at hdrop
    split at hdrop
    · next hfirst =>
      rw [Option.some.injEq, List.dropWhile_cons, if_pos hfirst] at hdrop
      refine ⟨first, others.takeWhile Char.isDigit, ?_, hfirst, fun digit hdigit => ?_⟩
      · rw [← hdrop, List.cons_append, List.takeWhile_append_dropWhile]
      · exact List.mem_takeWhile_imp hdigit
    · cases hdrop

/-- Runs of digits are characters of numbers. -/
theorem dropsNumberChars_dropDigits? : DropsNumberChars dropDigits? := by
  intro characters rest hdrop
  obtain ⟨first, digits, rfl, hfirst, hdigits⟩ := dropDigits?_eq_some hdrop
  refine ⟨first :: digits, rfl, fun character hmem => isNumberChar_of_isDigit ?_⟩
  rcases List.mem_cons.mp hmem with rfl | hmem
  · exact hfirst
  · exact hdigits character hmem

/-- A character of a number in front of what is dropped is dropped with it. -/
theorem DropsNumberChars.cons {drop : List Char → Option (List Char)} (hdrops : DropsNumberChars drop)
    {character : Char} {characters rest : List Char} (hcharacter : isNumberChar character = true)
    (hdrop : drop characters = some rest) :
    ∃ front, character :: characters = front ++ rest ∧
      ∀ character ∈ front, isNumberChar character = true := by
  obtain ⟨front, rfl, hfront⟩ := hdrops characters rest hdrop
  exact ⟨character :: front, rfl, List.forall_mem_cons.mpr ⟨hcharacter, hfront⟩⟩

/-- A fraction consists of characters of numbers. -/
theorem dropsNumberChars_dropFraction? : DropsNumberChars dropFraction? := by
  intro characters rest hdrop
  unfold dropFraction? at hdrop
  split at hdrop
  · exact dropsNumberChars_dropDigits?.cons (by decide) hdrop
  · cases hdrop
    exact ⟨[], rfl, by simp⟩

/-- An exponent consists of characters of numbers. -/
theorem dropsNumberChars_dropExponent? : DropsNumberChars dropExponent? := by
  intro characters rest hdrop
  unfold dropExponent? at hdrop
  split at hdrop
  · next mark others =>
    split at hdrop
    · next hmark =>
      have hmarkChar : isNumberChar mark = true := by
        rcases hmark with rfl | rfl <;> decide
      have hdigits : ∃ front, others = front ++ rest ∧
          ∀ character ∈ front, isNumberChar character = true := by
        split at hdrop
        · exact dropsNumberChars_dropDigits?.cons (by decide) hdrop
        · exact dropsNumberChars_dropDigits?.cons (by decide) hdrop
        · exact dropsNumberChars_dropDigits? _ _ hdrop
      obtain ⟨front, rfl, hfront⟩ := hdigits
      exact ⟨mark :: front, rfl, List.forall_mem_cons.mpr ⟨hmarkChar, hfront⟩⟩
    · cases hdrop
      exact ⟨[], rfl, by simp⟩
  · cases hdrop
    exact ⟨[], rfl, by simp⟩

/-- The whole part of a number starts with a digit and consists of characters of numbers. -/
theorem dropWhole?_eq_some {characters rest : List Char} (hdrop : dropWhole? characters = some rest) :
    ∃ first front, characters = first :: front ++ rest ∧ first.isDigit = true ∧
      ∀ character ∈ front, isNumberChar character = true := by
  unfold dropWhole? at hdrop
  split at hdrop
  · cases hdrop
    exact ⟨'0', [], rfl, by decide, by simp⟩
  · obtain ⟨first, digits, rfl, hfirst, hdigits⟩ := dropDigits?_eq_some hdrop
    exact ⟨first, digits, rfl, hfirst, fun digit hdigit =>
      isNumberChar_of_isDigit (hdigits digit hdigit)⟩

/-- A number literal starts with a digit or a minus sign and goes on with characters of numbers. -/
theorem isNumber_characters {literal : List Char} (hliteral : isNumber literal = true) :
    ∃ first rest, literal = first :: rest ∧ (first.isDigit = true ∨ first = '-') ∧
      ∀ character ∈ rest, isNumberChar character = true := by
  have hunsigned : ∀ unsigned : List Char,
      ((dropWhole? unsigned).bind dropFraction?).bind dropExponent? = some [] →
        ∃ first rest, unsigned = first :: rest ∧ first.isDigit = true ∧
          ∀ character ∈ rest, isNumberChar character = true := by
    intro unsigned h
    obtain ⟨afterFraction, h, hlast⟩ := Option.bind_eq_some_iff.mp h
    obtain ⟨afterWhole, hfront, hmiddle⟩ := Option.bind_eq_some_iff.mp h
    obtain ⟨first, whole, rfl, hfirst, hwhole⟩ := dropWhole?_eq_some hfront
    obtain ⟨fraction, rfl, hfraction⟩ := dropsNumberChars_dropFraction? _ _ hmiddle
    obtain ⟨exponent, rfl, hexponent⟩ := dropsNumberChars_dropExponent? _ _ hlast
    refine ⟨first, whole ++ (fraction ++ (exponent ++ [])), rfl, hfirst, ?_⟩
    simp only [List.append_nil, List.forall_mem_append]
    exact ⟨hwhole, hfraction, hexponent⟩
  unfold isNumber at hliteral
  rw [decide_eq_true_eq] at hliteral
  split at hliteral
  · obtain ⟨first, rest, rfl, hfirst, hrest⟩ := hunsigned _ hliteral
    refine ⟨'-', first :: rest, rfl, .inr rfl, ?_⟩
    exact List.forall_mem_cons.mpr ⟨isNumberChar_of_isDigit hfirst, hrest⟩
  · obtain ⟨first, rest, rfl, hfirst, hrest⟩ := hunsigned _ hliteral
    exact ⟨first, rest, rfl, .inl hfirst, hrest⟩

/-! ### Scanning what was laid out -/

/-- The scanner is between tokens, or in one that ends with the next delimiter; the tokens are those
found so far with that one. -/
inductive Ready : Scan → List Token → Prop
  | between (tokens : List Token) : Ready ⟨.between, tokens⟩ tokens
  | inWord (letters : List Char) (tokens : List Token) :
      Ready ⟨.inWord letters, tokens⟩ (.word letters.reverse :: tokens)
  | inNumber (literal : List Char) (tokens : List Token) :
      Ready ⟨.inNumber literal, tokens⟩ (.number literal.reverse :: tokens)

/-- At the end of the text the tokens are complete. -/
theorem Ready.finish {scan : Scan} {tokens : List Token} (hready : Ready scan tokens) :
    scan.finish = some tokens.reverse := by
  cases hready <;> rfl

/-- A delimiter completes the token under way. -/
theorem Ready.step {scan : Scan} {tokens : List Token} (hready : Ready scan tokens) {character : Char}
    (hlower : character.isLower = false) (hnumber : isNumberChar character = false) :
    scan.step character = Scan.start tokens character := by
  cases hready with
  | between => rfl
  | inWord letters tokens => simp [Scan.step, hlower]
  | inNumber literal tokens => simp [Scan.step, hnumber]

/-- The scanner's state after the pieces laid so far, which are held in reverse order. -/
def Scanned (laid : List Piece) (scan : Scan) : Prop :=
  (laid.reverse.flatMap Piece.spell).foldlM Scan.step ⟨.between, []⟩ = some scan

/-- Scanning goes on with the next piece. -/
theorem Scanned.cons {laid : List Piece} {scan next : Scan} (hlaid : Scanned laid scan) {piece : Piece}
    (hpiece : piece.spell.foldlM Scan.step scan = some next) : Scanned (piece :: laid) next := by
  rw [Scanned, List.reverse_cons, List.flatMap_append, List.foldlM_append, hlaid]
  simpa using hpiece

/-- After the pieces laid so far the tokens are found, the last one up to its delimiter. -/
def Finds (laid : List Piece) (tokens : List Token) : Prop :=
  ∃ scan, Scanned laid scan ∧ Ready scan tokens

/-- After the pieces laid so far the scanner is between tokens. -/
def FindsWhole (laid : List Piece) (tokens : List Token) : Prop :=
  Scanned laid ⟨.between, tokens⟩

variable {laid : List Piece} {tokens : List Token}

/-- Whole tokens are found. -/
theorem FindsWhole.finds (hlaid : FindsWhole laid tokens) : Finds laid tokens :=
  ⟨_, hlaid, .between tokens⟩

/-- The tokens that consist of one punctuation character. -/
def Token.IsPunctuation : Token → Prop
  | .openArray | .closeArray | .openObject | .closeObject | .comma | .colon => True
  | .word _ | .number _ | .string _ => False

/-- Punctuation is found after any token. -/
theorem Finds.punctuation (hlaid : Finds laid tokens) (token : Token) (htoken : token.IsPunctuation) :
    FindsWhole (.token token :: laid) (token :: tokens) := by
  obtain ⟨scan, hscan, hready⟩ := hlaid
  apply hscan.cons
  cases token with
  | word | number | string => cases htoken
  | openArray | closeArray | openObject | closeObject | comma | colon =>
    simp only [Piece.spell, Token.spell, List.foldlM_cons, List.foldlM_nil]
    rw [hready.step (by decide) (by decide)]
    rfl

/-- A string is found after any token. -/
theorem Finds.string (hlaid : Finds laid tokens) {literal : List Char}
    (hliteral : IsStringLiteral literal) :
    FindsWhole (.token (.string literal) :: laid) (.string literal :: tokens) := by
  obtain ⟨scan, hscan, hready⟩ := hlaid
  apply hscan.cons
  have hopen : Scan.start tokens '"' = some ⟨.inString [], tokens⟩ := rfl
  have hclose : Scan.step ⟨.inString (literal.reverse ++ []), tokens⟩ '"' =
      some ⟨.between, .string literal :: tokens⟩ := by
    simp [Scan.step]
  rw [Piece.spell, Token.spell, List.cons_append, List.foldlM_cons,
    hready.step (by decide) (by decide), hopen, Option.bind_eq_bind, Option.bind_some,
    List.foldlM_append, hliteral, Option.bind_eq_bind, Option.bind_some, List.foldlM_cons, hclose]
  rfl

/-- A space after a token is between tokens. -/
theorem Finds.space (hlaid : Finds laid tokens) : FindsWhole (.space :: laid) tokens := by
  obtain ⟨scan, hscan, hready⟩ := hlaid
  apply hscan.cons
  simp only [Piece.spell, List.foldlM_cons, List.foldlM_nil]
  rw [hready.step (by decide) (by decide)]
  rfl

/-- A line break after a token is between tokens. -/
theorem Finds.lineBreak (hlaid : Finds laid tokens) (depth : ℕ) :
    FindsWhole (.lineBreak depth :: laid) tokens := by
  obtain ⟨scan, hscan, hready⟩ := hlaid
  apply hscan.cons
  have hspaces : ∀ count : ℕ, (List.replicate count ' ').foldlM Scan.step ⟨.between, tokens⟩ =
      some ⟨.between, tokens⟩ := by
    intro count
    induction count with
    | zero => rfl
    | succ count ih =>
      rw [List.replicate_succ, List.foldlM_cons]
      exact ih
  rw [Piece.spell, List.foldlM_cons, hready.step (by decide) (by decide)]
  exact hspaces _

/-- A digit or a minus sign starts a number. -/
theorem start_number {first : Char} (hfirst : first.isDigit = true ∨ first = '-') :
    Scan.start tokens first = some ⟨.inNumber [first], tokens⟩ := by
  rcases hfirst with hdigit | rfl
  · have hne : ∀ other : Char, other.isDigit = false → first ≠ other := by
      rintro other hother rfl
      rw [hdigit] at hother
      cases hother
    simp [Scan.start, isSpace, hdigit, hne ' ' rfl, hne '\n' rfl, hne '\t' rfl, hne '\r' rfl,
      hne '[' rfl, hne ']' rfl, hne '\x7b' rfl, hne '\x7d' rfl, hne ',' rfl, hne ':' rfl, hne '"' rfl]
  · rfl

/-- A number is found between tokens. -/
theorem FindsWhole.number (hlaid : FindsWhole laid tokens) {literal : List Char}
    (hliteral : isNumber literal = true) :
    Finds (.token (.number literal) :: laid) (.number literal :: tokens) := by
  obtain ⟨first, rest, rfl, hfirst, hrest⟩ := isNumber_characters hliteral
  have hscan : ∀ read : List Char, rest.foldlM Scan.step ⟨.inNumber read, tokens⟩ =
      some ⟨.inNumber (rest.reverse ++ read), tokens⟩ := by
    clear hliteral
    induction rest with
    | nil => exact fun read => rfl
    | cons character rest ih =>
      intro read
      have hcharacter := hrest character (List.mem_cons_self ..)
      have hothers := ih fun other hother => hrest other (List.mem_cons_of_mem _ hother)
      simp [Scan.step, hcharacter, hothers]
  have hnumber : (first :: rest).foldlM Scan.step ⟨.between, tokens⟩ =
      some ⟨.inNumber (rest.reverse ++ [first]), tokens⟩ := by
    rw [List.foldlM_cons]
    change (Scan.start tokens first).bind _ = _
    rw [start_number hfirst, Option.bind_some, hscan]
  refine ⟨_, hlaid.cons hnumber, ?_⟩
  have hready := Ready.inNumber (rest.reverse ++ [first]) tokens
  rwa [List.reverse_append, List.reverse_reverse, List.reverse_singleton] at hready

/-- A constant is found between tokens. -/
theorem FindsWhole.word (hlaid : FindsWhole laid tokens) {letters : List Char}
    (hletters : letters ∈ ["null".toList, "true".toList, "false".toList]) :
    Finds (.token (.word letters) :: laid) (.word letters :: tokens) := by
  have hword : letters.foldlM Scan.step ⟨.between, tokens⟩ =
      some ⟨.inWord letters.reverse, tokens⟩ := by
    simp only [List.mem_cons, List.not_mem_nil, or_false] at hletters
    rcases hletters with rfl | rfl | rfl <;> rfl
  refine ⟨_, hlaid.cons hword, ?_⟩
  have hready := Ready.inWord letters.reverse tokens
  rwa [List.reverse_reverse] at hready

variable (style : Style)

/-- A line break of the layout, if there is one, does not change what is found. -/
theorem Finds.breakLine (hlaid : Finds laid tokens) (depth : ℕ) :
    Finds (style.breakLine depth laid) tokens := by
  cases style with
  | compact => exact hlaid
  | indented => exact (hlaid.lineBreak depth).finds

/-- Between tokens, a line break of the layout leaves the scanner there. -/
theorem FindsWhole.breakLine (hlaid : FindsWhole laid tokens) (depth : ℕ) :
    FindsWhole (style.breakLine depth laid) tokens := by
  cases style with
  | compact => exact hlaid
  | indented => exact hlaid.finds.lineBreak depth

/-- After a name come its colon and, if the layout has it, a space. -/
theorem FindsWhole.name (hlaid : FindsWhole laid tokens) {name : List Char}
    (hname : IsStringLiteral name) :
    FindsWhole (style.afterName (.token (.string name) :: laid)) (.colon :: .string name :: tokens) := by
  have hcolon := (hlaid.finds.string hname).finds.punctuation .colon trivial
  cases style with
  | compact => exact hcolon
  | indented => exact hcolon.finds.space

/-- A value is laid out so that its tokens are found. -/
def LaysTokens (value : Json) : Prop :=
  ∀ (depth : ℕ) {laid : List Piece} {tokens : List Token}, FindsWhole laid tokens →
    Finds (lay style depth laid value) ((tokensOf value).reverse ++ tokens)

/-- Items are found one by one, each after a comma. -/
theorem Finds.layItems {items : List Json} (hitems : ∀ item ∈ items, LaysTokens style item) (depth : ℕ)
    (hlaid : Finds laid tokens) :
    Finds (layItems style depth laid items) ((itemTokens items).reverse ++ tokens) := by
  induction items generalizing laid tokens with
  | nil => exact hlaid
  | cons item rest ih =>
    have hcomma := (hlaid.punctuation .comma trivial).breakLine style depth
    have hitem := hitems item (List.mem_cons_self ..) depth hcomma
    have hothers := ih (fun other hother => hitems other (List.mem_cons_of_mem _ hother)) hitem
    simpa [Json.layItems, itemTokens] using hothers

/-- Members are found one by one, each after a comma. -/
theorem Finds.layMembers {members : List (List Char × Json)}
    (hnames : ∀ member ∈ members, IsStringLiteral member.1)
    (hvalues : ∀ member ∈ members, LaysTokens style member.2) (depth : ℕ) (hlaid : Finds laid tokens) :
    Finds (layMembers style depth laid members) ((memberTokens members).reverse ++ tokens) := by
  induction members generalizing laid tokens with
  | nil => exact hlaid
  | cons member rest ih =>
    have hcomma := (hlaid.punctuation .comma trivial).breakLine style depth
    have hname := hcomma.name style (hnames member (List.mem_cons_self ..))
    have hvalue := hvalues member (List.mem_cons_self ..) depth hname
    have hothers := ih (fun other hother => hnames other (List.mem_cons_of_mem _ hother))
      (fun other hother => hvalues other (List.mem_cons_of_mem _ hother)) hvalue
    simpa [Json.layMembers, memberTokens] using hothers

/-- A well-formed value is laid out so that its tokens are found. -/
theorem WellFormed.laysTokens {value : Json} (hvalue : WellFormed value) : LaysTokens style value := by
  intro depth laid tokens hlaid
  induction hvalue generalizing depth laid tokens with
  | null => exact hlaid.word (by simp)
  | bool value =>
    cases value with
    | true => exact hlaid.word (by simp)
    | false => exact hlaid.word (by simp)
  | number hliteral => exact hlaid.number hliteral
  | string hliteral => exact (hlaid.finds.string hliteral).finds
  | @array items hitems ih =>
    cases items with
    | nil =>
      have hopen := hlaid.finds.punctuation .openArray trivial
      exact (hopen.finds.punctuation .closeArray trivial).finds
    | cons first rest =>
      have hopen := (hlaid.finds.punctuation .openArray trivial).breakLine style (depth + 1)
      have hfirst := ih first (List.mem_cons_self ..) (depth + 1) hopen
      have hall := hfirst.layItems style
        (fun item hitem depth _ _ => ih item (List.mem_cons_of_mem _ hitem) depth) (depth + 1)
      have hclose := (hall.breakLine style depth).punctuation .closeArray trivial
      simpa [lay, tokensOf] using hclose.finds
  | @object members hnames hvalues ih =>
    cases members with
    | nil =>
      have hopen := hlaid.finds.punctuation .openObject trivial
      exact (hopen.finds.punctuation .closeObject trivial).finds
    | cons member rest =>
      have hopen := (hlaid.finds.punctuation .openObject trivial).breakLine style (depth + 1)
      have hname := hopen.name style (hnames member (List.mem_cons_self ..))
      have hvalue := ih member (List.mem_cons_self ..) (depth + 1) hname
      have hall := hvalue.layMembers style
        (fun other hother => hnames other (List.mem_cons_of_mem _ hother))
        (fun other hother depth _ _ => ih other (List.mem_cons_of_mem _ hother) depth) (depth + 1)
      have hclose := (hall.breakLine style depth).punctuation .closeObject trivial
      simpa [lay, tokensOf] using hclose.finds

/-- The text of a well-formed value is scanned into its tokens. -/
theorem WellFormed.tokens?_render {value : Json} (hvalue : WellFormed value) :
    tokens? (render style value).toList = some (tokensOf value) := by
  have hstart : FindsWhole [] [] := rfl
  obtain ⟨scan, hscan, hready⟩ := hvalue.laysTokens style 0 hstart
  rw [Scanned] at hscan
  rw [tokens?, render, String.toList_ofList, hscan]
  simpa using hready.finish

/-! ### Building what was scanned -/

/-- Tokens lead the builder from one state to another. -/
def Builds (tokens : List Token) (build next : Build) : Prop :=
  tokens.foldlM Build.step build = some next

/-- One token is one step. -/
theorem Builds.single {token : Token} {build next : Build} (hstep : build.step token = some next) :
    Builds [token] build next := by
  simp [Builds, hstep]

/-- Tokens one after another lead on from where the first ones led. -/
theorem Builds.append {first second : List Token} {build middle next : Build}
    (hfirst : Builds first build middle) (hsecond : Builds second middle next) :
    Builds (first ++ second) build next := by
  rw [Builds, List.foldlM_append, hfirst]
  exact hsecond

/-- A token in front is a step before the others. -/
theorem Builds.cons {token : Token} {tokens : List Token} {build middle next : Build}
    (hstep : build.step token = some middle) (hrest : Builds tokens middle next) :
    Builds (token :: tokens) build next :=
  (Builds.single hstep).append hrest

/-- The first token of a value does not close an array. -/
theorem tokensOf_eq_cons (value : Json) :
    ∃ first rest, tokensOf value = first :: rest ∧ first ≠ .closeArray := by
  unfold tokensOf
  split <;> exact ⟨_, _, rfl, by simp⟩

/-- The first item of an array is built like a value inside the array. -/
theorem Builds.firstItem {value : Json} {outer : List Open} {next : Build}
    (hvalue : Builds (tokensOf value) (.value (.array [] :: outer)) next) :
    Builds (tokensOf value) (.firstItem outer) next := by
  obtain ⟨first, rest, htokens, hfirst⟩ := tokensOf_eq_cons value
  have hstep : Build.step (.firstItem outer) first = Build.step (.value (.array [] :: outer)) first := by
    cases first <;> first | rfl | exact absurd rfl hfirst
  rw [Builds, htokens, List.foldlM_cons] at hvalue ⊢
  rwa [hstep]

/-- The tokens of a value build it, and it is handed to the container around it. -/
def BuiltByTokens (value : Json) : Prop :=
  ∀ outer, Builds (tokensOf value) (.value outer) (Build.deliver value outer)

/-- Items are added to an array one by one. -/
theorem builds_itemTokens {items : List Json} (hitems : ∀ item ∈ items, BuiltByTokens item)
    (read : List Json) (outer : List Open) :
    Builds (itemTokens items) (.afterItem read outer) (.afterItem (items.reverse ++ read) outer) := by
  induction items generalizing read with
  | nil => rfl
  | cons item rest ih =>
    have hitem := hitems item (List.mem_cons_self ..) (.array read :: outer)
    have hothers := ih (fun other hother => hitems other (List.mem_cons_of_mem _ hother)) (item :: read)
    rw [List.reverse_cons, List.append_assoc]
    exact (Builds.cons rfl hitem).append hothers

/-- Members are added to an object one by one. -/
theorem builds_memberTokens {members : List (List Char × Json)}
    (hvalues : ∀ member ∈ members, BuiltByTokens member.2) (read : List (List Char × Json))
    (outer : List Open) :
    Builds (memberTokens members) (.afterMember read outer)
      (.afterMember (members.reverse ++ read) outer) := by
  induction members generalizing read with
  | nil => rfl
  | cons member rest ih =>
    have hvalue := hvalues member (List.mem_cons_self ..) (.object read member.1 :: outer)
    have hothers := ih (fun other hother => hvalues other (List.mem_cons_of_mem _ hother))
      (member :: read)
    rw [List.reverse_cons, List.append_assoc]
    exact (Builds.cons rfl (.cons rfl (.cons rfl hvalue))).append hothers

/-- The tokens of a well-formed value build the value. -/
theorem WellFormed.builtByTokens {value : Json} (hvalue : WellFormed value) : BuiltByTokens value := by
  intro outer
  induction hvalue generalizing outer with
  | null => exact .single rfl
  | bool value => cases value <;> exact .single rfl
  | number hliteral => exact .single (if_pos hliteral)
  | string hliteral => exact .single rfl
  | @array items hitems ih =>
    cases items with
    | nil => exact .cons rfl (.single rfl)
    | cons first rest =>
      have hfirst := ih first (List.mem_cons_self ..) (.array [] :: outer)
      have hall := builds_itemTokens (fun item hitem => ih item (List.mem_cons_of_mem _ hitem))
        [first] outer
      have hclose : Build.step (.afterItem (rest.reverse ++ [first]) outer) .closeArray =
          some (Build.deliver (.array (first :: rest)) outer) := by
        simp [Build.step]
      exact ((Builds.cons rfl hfirst.firstItem).append hall).append (.single hclose)
  | @object members hnames hvalues ih =>
    cases members with
    | nil => exact .cons rfl (.single rfl)
    | cons member rest =>
      have hvalue := ih member (List.mem_cons_self ..) (.object [] member.1 :: outer)
      have hall := builds_memberTokens (fun other hother => ih other (List.mem_cons_of_mem _ hother))
        [member] outer
      have hclose : Build.step (.afterMember (rest.reverse ++ [member]) outer) .closeObject =
          some (Build.deliver (.object (member :: rest)) outer) := by
        simp [Build.step]
      exact ((Builds.cons rfl (.cons rfl (.cons rfl hvalue))).append hall).append (.single hclose)

/-- Every well-formed value is read back from its text, in either layout. -/
theorem WellFormed.parse?_render {value : Json} (hvalue : WellFormed value) :
    parse? (render style value) = some value := by
  have hbuilds : (tokensOf value).foldlM Build.step (.value []) = some (.done value) :=
    hvalue.builtByTokens []
  rw [parse?, hvalue.tokens?_render style, Option.bind_eq_bind, Option.bind_some, ofTokens?, hbuilds]
  rfl

end PrivateFootage.Json
