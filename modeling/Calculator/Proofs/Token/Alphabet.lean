import Calculator.Proofs.Token.Tiling

/-!
# The alphabet of requests

A text is cut into tokens exactly if it is written with blanks, letters, digits
and marks, where an exclamation mark counts only in front of an equal sign.
Otherwise it is refused at the first character for which this fails, whatever
comes after it.
-/

namespace Calculator

namespace Text

/-- Whether a character may stand in a request in front of others. -/
def inAlphabet (character : Char) (after : List Char) : Bool :=
  isBlank character || character.isAlphanum ||
    "():,?+-*/%<>=".toList.contains character ||
    (character == '!' && after.head? == some '=')

/-- All of the characters may stand in a request in front of others. -/
def AllInAlphabet (characters after : List Char) : Prop :=
  ∀ before character rest, characters = before ++ character :: rest →
    inAlphabet character (rest ++ after) = true

theorem allInAlphabet_nil (after : List Char) : AllInAlphabet [] after := by
  intro before character rest impossible
  simp at impossible

@[simp] theorem allInAlphabet_cons {first : Char} {rest after : List Char} :
    AllInAlphabet (first :: rest) after ↔
      inAlphabet first (rest ++ after) = true ∧ AllInAlphabet rest after := by
  constructor
  · intro all
    refine ⟨all [] first rest rfl, fun before character later rest_eq => ?_⟩
    exact all (first :: before) character later (by rw [rest_eq]; rfl)
  · rintro ⟨inFirst, inRest⟩ before character later characters_eq
    cases before with
    | nil =>
        obtain ⟨rfl, rfl⟩ := List.cons.inj characters_eq
        exact inFirst
    | cons other before =>
        exact inRest before character later (List.cons.inj characters_eq).2

@[simp] theorem allInAlphabet_append {characters later after : List Char} :
    AllInAlphabet (characters ++ later) after ↔
      AllInAlphabet characters (later ++ after) ∧
        AllInAlphabet later after := by
  induction characters with
  | nil => exact ⟨fun all => ⟨allInAlphabet_nil _, all⟩, fun both => both.2⟩
  | cons first rest induction =>
      simp only [List.cons_append, allInAlphabet_cons, induction,
        List.append_assoc, and_assoc]

theorem allInAlphabet_of_alphanum {characters : List Char}
    (alphanums : ∀ character ∈ characters, character.isAlphanum = true)
    (after : List Char) : AllInAlphabet characters after := by
  rintro before character rest rfl
  have isAlphanum := alphanums character (by simp)
  simp [inAlphabet, isAlphanum]

end Text

namespace TokenKind

theorem Spells.allInAlphabet {kind : TokenKind} {lexeme : List Char}
    (spells : kind.Spells lexeme) (after : List Char) :
    Text.AllInAlphabet lexeme after := by
  cases spells with
  | number isDigit digits =>
      apply Text.allInAlphabet_of_alphanum
      refine List.forall_mem_cons.mpr ⟨?_, fun character given => ?_⟩
      · rw [Char.isAlphanum, isDigit, Bool.or_true]
      · rw [Char.isAlphanum, digits character given, Bool.or_true]
  | name isAlpha alphanums =>
      apply Text.allInAlphabet_of_alphanum
      refine List.forall_mem_cons.mpr ⟨?_, alphanums⟩
      rw [Char.isAlphanum, isAlpha, Bool.true_or]
  | mark isMark =>
      cases kind <;> cases isMark <;>
        simp [Text.inAlphabet, Text.allInAlphabet_nil]

/-- The marks of one character. -/
theorem ofCharacter?_eq_none_iff {character : Char} :
    ofCharacter? character = none ↔
      "():,?+-*/%<>=".toList.contains character = false := by
  unfold ofCharacter?
  split <;> simp_all

/-- A character that begins no lexeme is not in the alphabet. -/
theorem not_inAlphabet_of_recognize? {first : Char} {rest : List Char}
    (notBlank : Text.isBlank first = false)
    (unrecognized : recognize? first rest = none) :
    Text.inAlphabet first rest = false := by
  unfold recognize? at unrecognized
  split at unrecognized
  · cases unrecognized
  · next notDigit =>
    split at unrecognized
    · cases unrecognized
    · next notAlpha =>
      split at unrecognized
      · cases unrecognized
      · next notLonger =>
        have noMark : ofCharacter? first = none :=
          Option.map_eq_none_iff.mp unrecognized
        have notExclamation :
            (first == '!' && rest.head? == some '=') = false := by
          rw [Bool.eq_false_iff]
          intro both
          obtain ⟨isExclamation, isEqual⟩ := Bool.and_eq_true_iff.mp both
          rw [eq_of_beq isExclamation] at notLonger
          exact notLonger _ isEqual rfl
        rw [Text.inAlphabet, notBlank, Char.isAlphanum,
          Bool.eq_false_iff.mpr notAlpha, Bool.eq_false_iff.mpr notDigit,
          ofCharacter?_eq_none_iff.mp noMark, notExclamation]
        rfl

end TokenKind

namespace Text

/-- A text has a character that may not stand where it does, and all before it
may. -/
structure FirstForeign (characters before : List Char) (character : Char)
    (after : List Char) : Prop where
  split : characters = before ++ character :: after
  known : AllInAlphabet before (character :: after)
  foreign : inAlphabet character after = false

namespace FirstForeign

variable {characters before after : List Char} {character : Char}

theorem append (first : FirstForeign characters before character after)
    {lexeme : List Char} (known : AllInAlphabet lexeme characters) :
    FirstForeign (lexeme ++ characters) (lexeme ++ before) character after := by
  refine ⟨?_, allInAlphabet_append.mpr ⟨?_, first.known⟩, first.foreign⟩
  · rw [first.split, List.append_assoc]
  · rw [← first.split]
    exact known

theorem not_allInAlphabet (first : FirstForeign characters before character
    after) : ¬AllInAlphabet characters [] := by
  intro all
  have known := all before character after first.split
  rw [List.append_nil, first.foreign] at known
  cases known

/-- What comes before the first foreign character ends no earlier. -/
theorem length_le {before' after' : List Char} {character' : Char}
    (first : FirstForeign characters before character after)
    (first' : FirstForeign characters before' character' after') :
    before'.length ≤ before.length := by
  have same := first.split.symm.trans first'.split
  rcases List.append_eq_append_iff.mp same with
    ⟨more, before_eq, rest_eq⟩ | ⟨more, before_eq, _⟩
  · cases more with
    | nil => rw [before_eq, List.append_nil]
    | cons other more =>
        -- Otherwise the character is one of those before the other.
        obtain ⟨rfl, after_eq⟩ := List.cons.inj rest_eq
        have known : inAlphabet character after = true := by
          rw [after_eq]
          exact first'.known before character more before_eq
        rw [first.foreign] at known
        cases known
  · rw [before_eq, List.length_append]
    exact Nat.le_add_right _ _

theorem unique {before' after' : List Char} {character' : Char}
    (first : FirstForeign characters before character after)
    (first' : FirstForeign characters before' character' after') :
    before = before' ∧ character = character' := by
  have length_eq : before.length = before'.length :=
    Nat.le_antisymm (first'.length_le first) (first.length_le first')
  obtain ⟨before_eq, rest_eq⟩ :=
    List.append_inj (first.split.symm.trans first'.split) length_eq
  exact ⟨before_eq, (List.cons.inj rest_eq).1⟩

end FirstForeign

end Text

namespace Token

theorem Tiles.allInAlphabet {line column : Nat} {characters : List Char}
    {tokens : List Token} (tiles : Tiles line column characters tokens) :
    Text.AllInAlphabet characters [] := by
  induction tiles with
  | nil => exact Text.allInAlphabet_nil []
  | blank isBlank _ induction =>
      refine Text.allInAlphabet_cons.mpr ⟨?_, induction⟩
      rw [Text.inAlphabet, isBlank]
      rfl
  | lexeme spells _ _ induction =>
      exact Text.allInAlphabet_append.mpr
        ⟨spells.allInAlphabet _, induction⟩

/-- The complaint about a character behind others that start at a column. -/
def unrecognized (line column : Nat) (before : List Char) (character : Char) :
    SyntaxError :=
  let start := column + Text.byteLength before
  .unrecognizedCharacter
    (.columns line start (start + character.utf8Size - 1)) character

theorem firstForeign_of_scanFrom {line column : Nat} {earlier : List Token}
    {characters : List Char} {error : SyntaxError}
    (refused : scanFrom line column earlier characters = .error error) :
    ∃ before character after,
      Text.FirstForeign characters before character after ∧
        error = unrecognized line column before character := by
  fun_induction scanFrom line column earlier characters with
  | case1 => cases refused
  | case2 column earlier first rest isBlank induction =>
      obtain ⟨before, character, after, foreign, rfl⟩ := induction refused
      have known : Text.AllInAlphabet [first] rest := by
        simp [Text.inAlphabet, isBlank, Text.allInAlphabet_nil]
      refine ⟨first :: before, character, after, foreign.append known, ?_⟩
      simp only [unrecognized, Text.byteLength_cons, Nat.add_assoc]
  | case3 column earlier first rest notBlank unrecognized =>
      cases refused
      have foreign := TokenKind.not_inAlphabet_of_recognize?
        (Bool.eq_false_iff.mpr notBlank) unrecognized
      exact ⟨[], first, rest, ⟨rfl, Text.allInAlphabet_nil _, foreign⟩, rfl⟩
  | case4 column earlier first rest notBlank kind count recognized characters
      next token induction =>
      obtain ⟨before, character, after, foreign, rfl⟩ := induction refused
      have spells := TokenKind.spells_of_recognize? recognized
      have whole := foreign.append (spells.allInAlphabet _)
      rw [List.cons_append, List.take_append_drop] at whole
      refine ⟨_, character, after, whole, ?_⟩
      simp only [unrecognized, next, characters, Text.byteLength_append,
        Text.byteLength_cons, List.cons_append, Nat.add_assoc]

/-- A text is cut into tokens if and only if all of its characters are in the
alphabet.  It is refused with an error if and only if the error points at the
first character that is not. -/
theorem scan_iff_inAlphabet (line : Nat) (text : String) :
    ((∃ tokens, scan line text = .ok tokens) ↔
      ∀ before character after, text.toList = before ++ character :: after →
        Text.inAlphabet character after = true) ∧
    ∀ error, scan line text = .error error ↔
      ∃ before character after,
        Text.FirstForeign text.toList before character after ∧
          error = .unrecognizedCharacter
            (.columns line (Text.byteLength before + 1)
              (Text.byteLength before + character.utf8Size)) character := by
  have all_iff : Text.AllInAlphabet text.toList [] ↔
      ∀ before character after, text.toList = before ++ character :: after →
        Text.inAlphabet character after = true := by
    simp only [Text.AllInAlphabet, List.append_nil]
  have accepted {tokens : List Token} (scanned : scan line text = .ok tokens) :
      Text.AllInAlphabet text.toList [] :=
    (tiles_of_scan scanned).allInAlphabet
  have refusal {before : List Char} {character : Char} :
      unrecognized line 1 before character = .unrecognizedCharacter
        (.columns line (Text.byteLength before + 1)
          (Text.byteLength before + character.utf8Size)) character := by
    have stop_eq : Text.byteLength before + 1 + character.utf8Size - 1 =
        Text.byteLength before + character.utf8Size := by
      omega
    simp only [unrecognized, Nat.add_comm 1, stop_eq]
  rw [← all_iff]
  cases scanned : scan line text with
  | ok tokens =>
      refine ⟨⟨fun _ => accepted scanned, fun _ => ⟨tokens, rfl⟩⟩, ?_⟩
      intro error
      refine ⟨nofun, ?_⟩
      rintro ⟨before, character, after, foreign, -⟩
      exact absurd (accepted scanned) foreign.not_allInAlphabet
  | error found =>
      obtain ⟨before, character, after, foreign, found_eq⟩ :=
        firstForeign_of_scanFrom scanned
      rw [refusal] at found_eq
      refine ⟨⟨nofun, fun all => absurd all foreign.not_allInAlphabet⟩, ?_⟩
      intro error
      constructor
      · intro same
        cases same
        exact ⟨before, character, after, foreign, found_eq⟩
      · rintro ⟨before', character', after', foreign', rfl⟩
        obtain ⟨rfl, rfl⟩ := foreign.unique foreign'
        rw [found_eq]

end Token
end Calculator
