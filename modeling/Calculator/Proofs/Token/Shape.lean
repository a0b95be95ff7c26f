import Calculator.Proofs.Token.Pieces

/-!
# The shapes of lexemes

A number is written with digits, a name with a letter and the letters and digits
after it, and every other kind has one spelling.  Whatever a text is cut into
has the shape of its kind.  The other way round, characters of such a shape are
cut off as one piece exactly if the character after them does not continue them.
-/

namespace Calculator

namespace Text

theorem isAlpha_iff_toNat {character : Char} :
    character.isAlpha = true ↔
      (65 ≤ character.toNat ∧ character.toNat ≤ 90) ∨
        (97 ≤ character.toNat ∧ character.toNat ≤ 122) := by
  change (decide (65 ≤ character.val ∧ character.val ≤ 90) ||
    (decide (97 ≤ character.val) && decide (character.val ≤ 122))) = true ↔ _
  simp [UInt32.le_iff_toNat_le, ← Char.toNat_val]

theorem isDigit_iff_toNat {character : Char} :
    character.isDigit = true ↔
      48 ≤ character.toNat ∧ character.toNat ≤ 57 := by
  simp [Char.isDigit, UInt32.le_iff_toNat_le, ← Char.toNat_val]

theorem notDigit_of_isAlpha {character : Char}
    (alpha : character.isAlpha = true) : character.isDigit = false := by
  rw [Bool.eq_false_iff, ne_eq, isDigit_iff_toNat]
  rw [isAlpha_iff_toNat] at alpha
  omega

theorem notAlphanum_of_isBlank {character : Char}
    (blank : isBlank character = true) : character.isAlphanum = false := by
  simp only [isBlank, Bool.or_eq_true, Bool.and_eq_true, beq_iff_eq,
    decide_eq_true_eq] at blank
  rw [Bool.eq_false_iff, ne_eq, Char.isAlphanum, Bool.or_eq_true,
    isAlpha_iff_toNat, isDigit_iff_toNat]
  omega

theorem notBlank_of_isAlphanum {character : Char}
    (alphanum : character.isAlphanum = true) : isBlank character = false := by
  rw [Bool.eq_false_iff]
  intro blank
  rw [notAlphanum_of_isBlank blank] at alphanum
  cases alphanum

end Text

namespace TokenKind

/-- The characters of a mark or an operator.  Numbers and names have no spelling
of their own. -/
def spelling? : TokenKind → Option (List Char)
  | .name | .number => none
  | .leftParenthesis => some ['(']
  | .rightParenthesis => some [')']
  | .colon => some [':']
  | .comma => some [',']
  | .question => some ['?']
  | .plus => some ['+']
  | .minus => some ['-']
  | .star => some ['*']
  | .slash => some ['/']
  | .percent => some ['%']
  | .less => some ['<']
  | .greater => some ['>']
  | .equal => some ['=']
  | .equalEqual => some ['=', '=']
  | .notEqual => some ['!', '=']
  | .lessEqual => some ['<', '=']
  | .greaterEqual => some ['>', '=']

/-- Characters have the shape of a kind. -/
inductive Spells : TokenKind → List Char → Prop
  | number {first rest} (isDigit : first.isDigit = true)
      (digits : ∀ character ∈ rest, character.isDigit = true) :
      Spells .number (first :: rest)
  | name {first rest} (isAlpha : first.isAlpha = true)
      (alphanums : ∀ character ∈ rest, character.isAlphanum = true) :
      Spells .name (first :: rest)
  | mark {kind characters} (isMark : kind.spelling? = some characters) :
      Spells kind characters

/-- Whether a character right after a lexeme of some kind belongs to a longer
lexeme. -/
def continues : TokenKind → Char → Bool
  | .number, next => next.isDigit
  | .name, next => next.isAlphanum
  | .less, next | .greater, next | .equal, next => next == '='
  | _, _ => false

theorem not_continues_of_isBlank {character : Char}
    (blank : Text.isBlank character = true) (kind : TokenKind) :
    kind.continues character = false := by
  have notAlphanum := Text.notAlphanum_of_isBlank blank
  have notDigit : character.isDigit = false := by
    rw [Char.isAlphanum, Bool.or_eq_false_iff] at notAlphanum
    exact notAlphanum.2
  have notEqual : (character == '=') = false := by
    rw [beq_eq_false_iff_ne]
    rintro rfl
    cases blank
  cases kind <;> first | rfl | assumption

theorem ofCharacter?_eq_some_iff {character : Char} {kind : TokenKind} :
    ofCharacter? character = some kind ↔ kind.spelling? = some [character] := by
  constructor
  · intro isMark
    unfold ofCharacter? at isMark
    split at isMark <;> cases isMark <;> rfl
  · intro spelled
    cases kind <;> cases spelled <;> rfl

theorem ofCharacterEqual?_eq_some_iff {character : Char} {kind : TokenKind} :
    ofCharacterEqual? character = some kind ↔
      kind.spelling? = some [character, '='] := by
  constructor
  · intro isMark
    unfold ofCharacterEqual? at isMark
    split at isMark <;> cases isMark <;> rfl
  · intro spelled
    cases kind <;> cases spelled <;> rfl

theorem take_length_takeWhile (accepts : Char → Bool) (characters : List Char) :
    characters.take (characters.takeWhile accepts).length =
      characters.takeWhile accepts :=
  (List.prefix_iff_eq_take.mp (List.takeWhile_prefix accepts)).symm

/-- What is recognized at the front of a text has the shape of its kind. -/
theorem spells_of_recognize? {first : Char} {rest : List Char}
    {kind : TokenKind} {count : Nat}
    (recognized : recognize? first rest = some (kind, count)) :
    kind.Spells (first :: rest.take count) := by
  unfold recognize? at recognized
  split at recognized
  · next isDigit =>
    cases recognized
    rw [take_length_takeWhile]
    exact .number isDigit (List.all_eq_true.mp List.all_takeWhile)
  · split at recognized
    · next isAlpha =>
      cases recognized
      rw [take_length_takeWhile]
      exact .name isAlpha (List.all_eq_true.mp List.all_takeWhile)
    · split at recognized
      · next isEqual isMark =>
        cases recognized
        obtain ⟨others, rfl⟩ := List.head?_eq_some_iff.mp (eq_of_beq isEqual)
        exact .mark (ofCharacterEqual?_eq_some_iff.mp isMark)
      · obtain ⟨_, isMark, same⟩ := Option.map_eq_some_iff.mp recognized
        cases same
        exact .mark (ofCharacter?_eq_some_iff.mp isMark)

theorem takeWhile_eq_nil_iff {accepts : Char → Bool} {after : List Char} :
    after.takeWhile accepts = [] ↔
      ∀ next ∈ after.head?, accepts next = false := by
  cases after with
  | nil => simp
  | cons next after => cases accepted : accepts next <;> simp [accepted]

/-- A lexeme is recognized as a whole unless the next character continues it. -/
theorem recognize?_append_eq_some_iff {kind : TokenKind} {first : Char}
    {rest : List Char} (spells : kind.Spells (first :: rest))
    (after : List Char) :
    recognize? first (rest ++ after) = some (kind, rest.length) ↔
      ∀ next ∈ after.head?, kind.continues next = false := by
  cases spells with
  | number isDigit digits =>
      simp only [recognize?, isDigit, if_true,
        List.takeWhile_append_of_pos digits, List.length_append,
        Option.some.injEq, Prod.mk.injEq, true_and, Nat.add_eq_left,
        List.length_eq_zero_iff, continues, takeWhile_eq_nil_iff]
  | name isAlpha alphanums =>
      simp only [recognize?, Text.notDigit_of_isAlpha isAlpha, isAlpha, if_true,
        Bool.false_eq_true, if_false, List.takeWhile_append_of_pos alphanums,
        List.length_append, Option.some.injEq, Prod.mk.injEq, true_and,
        Nat.add_eq_left, List.length_eq_zero_iff, continues,
        takeWhile_eq_nil_iff]
  | mark isMark =>
      cases after with
      | nil =>
          cases kind <;> cases isMark <;>
            simp [recognize?, ofCharacter?, ofCharacterEqual?]
      | cons next after =>
          -- Only an equal sign makes a longer operator.
          by_cases isEqual : next = '=' <;> cases kind <;> cases isMark <;>
            simp [recognize?, ofCharacter?, ofCharacterEqual?, continues,
              isEqual]

/-- The first character of a lexeme is no blank. -/
theorem Spells.notBlank {kind : TokenKind} {first : Char} {rest : List Char}
    (spells : kind.Spells (first :: rest)) : Text.isBlank first = false := by
  cases spells with
  | number isDigit _ =>
      apply Text.notBlank_of_isAlphanum
      rw [Char.isAlphanum, isDigit, Bool.or_true]
  | name isAlpha _ =>
      apply Text.notBlank_of_isAlphanum
      rw [Char.isAlphanum, isAlpha, Bool.true_or]
  | mark isMark => cases kind <;> cases isMark <;> rfl

theorem Spells.exists_cons {kind : TokenKind} {characters : List Char}
    (spells : kind.Spells characters) :
    ∃ first rest, characters = first :: rest := by
  cases spells with
  | number _ _ => exact ⟨_, _, rfl⟩
  | name _ _ => exact ⟨_, _, rfl⟩
  | mark isMark => cases kind <;> cases isMark <;> exact ⟨_, _, rfl⟩

end TokenKind

/-- A letter and the letters and digits after it. -/
def IsIdentifier (text : String) : Prop :=
  TokenKind.name.Spells text.toList

theorem isIdentifier_iff {text : String} :
    IsIdentifier text ↔ text.toList.head?.any Char.isAlpha = true ∧
      text.toList.tail.all Char.isAlphanum = true := by
  rw [IsIdentifier]
  constructor
  · intro spells
    generalize text.toList = characters at spells ⊢
    cases spells with
    | name isAlpha alphanums => exact ⟨isAlpha, List.all_eq_true.mpr alphanums⟩
    | mark isMark => cases isMark
  · rintro ⟨isAlpha, alphanums⟩
    cases text_eq : text.toList with
    | nil =>
        rw [text_eq] at isAlpha
        cases isAlpha
    | cons first rest =>
        rw [text_eq] at isAlpha alphanums
        exact .name isAlpha (List.all_eq_true.mp alphanums)

instance : DecidablePred IsIdentifier :=
  fun _ => decidable_of_iff _ isIdentifier_iff.symm

namespace Cuts

/-- Every piece has the shape of its kind. -/
theorem spells {characters : List Char} {pieces : List (TokenKind × String)}
    (cuts : Cuts characters pieces) :
    ∀ piece ∈ pieces, piece.1.Spells piece.2.toList := by
  induction cuts with
  | nil => simp
  | blank _ _ induction => exact induction
  | piece _ recognized _ induction =>
      refine List.forall_mem_cons.mpr ⟨?_, induction⟩
      rw [String.toList_ofList]
      exact TokenKind.spells_of_recognize? recognized

/-- Blanks in front of a text make no difference. -/
theorem blanks_append_iff {blanks after : List Char}
    {pieces : List (TokenKind × String)}
    (blank : ∀ character ∈ blanks, Text.isBlank character = true) :
    Cuts (blanks ++ after) pieces ↔ Cuts after pieces := by
  induction blanks with
  | nil => rfl
  | cons first rest induction =>
      obtain ⟨firstBlank, restBlank⟩ := List.forall_mem_cons.mp blank
      rw [← induction restBlank]
      constructor
      · intro cuts
        cases cuts with
        | blank _ cuts => exact cuts
        | piece notBlank _ _ =>
            rw [firstBlank] at notBlank
            cases notBlank
      · exact .blank firstBlank

/-- A lexeme is cut off as one piece exactly if the next character does not
continue it. -/
theorem lexeme_append_iff {kind : TokenKind} {lexeme : String}
    {after : List Char} {pieces : List (TokenKind × String)}
    (spells : kind.Spells lexeme.toList) :
    Cuts (lexeme.toList ++ after) ((kind, lexeme) :: pieces) ↔
      (∀ next ∈ after.head?, kind.continues next = false) ∧
        Cuts after pieces := by
  obtain ⟨first, rest, lexeme_eq⟩ := spells.exists_cons
  rw [lexeme_eq] at spells ⊢
  rw [← TokenKind.recognize?_append_eq_some_iff spells, List.cons_append]
  constructor
  · intro cuts
    cases cuts with
    | blank isBlank _ =>
        rw [spells.notBlank] at isBlank
        cases isBlank
    | @piece _ _ _ count _ _ recognized cuts =>
        rw [String.toList_ofList, List.cons.injEq] at lexeme_eq
        have count_le := TokenKind.count_le_of_recognize? recognized
        have count_eq : count = rest.length := by
          rw [← lexeme_eq.2, List.length_take, Nat.min_eq_left count_le]
        rw [count_eq] at recognized cuts
        rw [List.drop_left] at cuts
        exact ⟨recognized, cuts⟩
  · rintro ⟨recognized, cuts⟩
    rw [← @List.drop_left _ rest after] at cuts
    have cutsAll := Cuts.piece spells.notBlank recognized cuts
    rw [List.take_left, ← lexeme_eq, String.ofList_toList] at cutsAll
    exact cutsAll

end Cuts

/-- The lexemes of the tokens of a text have the shapes of their kinds. -/
theorem Token.spells_of_scan {line : Nat} {text : String} {tokens : List Token}
    (scanned : scan line text = .ok tokens) :
    ∀ token ∈ tokens, token.kind.Spells token.lexeme.toList := by
  intro token given
  exact (cuts_of_scan scanned).spells _ (List.mem_map_of_mem given)

end Calculator
