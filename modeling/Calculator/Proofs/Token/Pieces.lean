import Calculator.Token.Scan

/-!
# Pieces of a request

A request is cut into pieces, each of a kind and with its characters.  Where a
piece stands has no influence on the cut, so that it is the same in every column
of a line.  A text may be cut in two in front of any character that no piece
goes on with, and a parenthesis is such a character.
-/

namespace Calculator

/-- The kind and the characters of a token. -/
def Token.piece (token : Token) : TokenKind × String :=
  (token.kind, token.lexeme)

/-- The pieces that characters are cut into. -/
inductive Cuts : List Char → List (TokenKind × String) → Prop
  | nil : Cuts [] []
  | blank {first rest pieces} (isBlank : Text.isBlank first = true)
      (cuts : Cuts rest pieces) : Cuts (first :: rest) pieces
  | piece {first rest kind count pieces}
      (notBlank : Text.isBlank first = false)
      (recognized : TokenKind.recognize? first rest = some (kind, count))
      (cuts : Cuts (rest.drop count) pieces) :
      Cuts (first :: rest)
        ((kind, String.ofList (first :: rest.take count)) :: pieces)

namespace Token

theorem cuts_of_scanFrom {line column : Nat} {before tokens : List Token}
    {characters : List Char}
    (scanned : scanFrom line column before characters = .ok tokens) :
    ∃ later, tokens = before.reverse ++ later ∧
      Cuts characters (later.map piece) := by
  fun_induction scanFrom line column before characters with
  | case1 column before =>
      cases scanned
      exact ⟨[], (List.append_nil _).symm, .nil⟩
  | case2 column before first rest isBlank induction =>
      obtain ⟨later, tokens_eq, cuts⟩ := induction scanned
      exact ⟨later, tokens_eq, .blank isBlank cuts⟩
  | case3 => cases scanned
  | case4 column before first rest notBlank kind count recognized characters
      next token induction =>
      obtain ⟨later, tokens_eq, cuts⟩ := induction scanned
      refine ⟨token :: later, ?_, ?_⟩
      · rw [tokens_eq, List.reverse_cons, List.append_assoc]
        rfl
      · exact .piece (Bool.eq_false_iff.mpr notBlank) recognized cuts

theorem scanFrom_of_cuts {characters : List Char}
    {pieces : List (TokenKind × String)} (cuts : Cuts characters pieces)
    (line column : Nat) (before : List Token) :
    ∃ later, scanFrom line column before characters =
        .ok (before.reverse ++ later) ∧ later.map piece = pieces := by
  induction cuts generalizing column before with
  | nil =>
      refine ⟨[], ?_, rfl⟩
      unfold scanFrom
      rw [List.append_nil]
  | blank isBlank cuts induction =>
      unfold scanFrom
      rw [if_pos isBlank]
      exact induction _ _
  | @piece first rest kind count pieces notBlank recognized cuts induction =>
      unfold scanFrom
      rw [if_neg (Bool.eq_false_iff.mp notBlank)]
      simp only [recognized]
      let next := column + Text.byteLength (first :: rest.take count)
      let token : Token := ⟨kind, String.ofList (first :: rest.take count),
        .columns line column (next - 1)⟩
      obtain ⟨later, scanned, pieces_eq⟩ := induction next (token :: before)
      refine ⟨token :: later, ?_, ?_⟩
      · rw [scanned, List.reverse_cons, List.append_assoc]
        rfl
      · rw [List.map_cons, pieces_eq]
        rfl

/-- The tokens of a text have the pieces that the text is cut into. -/
theorem cuts_of_scan {line : Nat} {text : String} {tokens : List Token}
    (scanned : scan line text = .ok tokens) :
    Cuts text.toList (tokens.map piece) := by
  obtain ⟨later, rfl, cuts⟩ := cuts_of_scanFrom scanned
  exact cuts

theorem scan_of_cuts {text : String} {pieces : List (TokenKind × String)}
    (cuts : Cuts text.toList pieces) (line : Nat) :
    ∃ tokens, scan line text = .ok tokens ∧ tokens.map piece = pieces :=
  scanFrom_of_cuts cuts line 1 []

end Token

namespace TokenKind

/-- A piece that started before a character does not go on with it. -/
structure Parts (character : Char) : Prop where
  notAlphanum : character.isAlphanum = false
  notEqual : character ≠ '='

theorem Parts.notDigit {character : Char} (parts : Parts character) :
    character.isDigit = false := by
  have notAlphanum := parts.notAlphanum
  rw [Char.isAlphanum, Bool.or_eq_false_iff] at notAlphanum
  exact notAlphanum.2

theorem Parts.space : Parts ' ' :=
  ⟨rfl, by decide⟩

theorem Parts.comma : Parts ',' :=
  ⟨rfl, by decide⟩

theorem Parts.leftParenthesis : Parts '(' :=
  ⟨rfl, by decide⟩

theorem Parts.rightParenthesis : Parts ')' :=
  ⟨rfl, by decide⟩

theorem takeWhile_append_cons {accepts : Char → Bool} {mark : Char}
    (refused : accepts mark = false) (characters after : List Char) :
    (characters ++ mark :: after).takeWhile accepts =
      characters.takeWhile accepts := by
  induction characters with
  | nil => simp [refused]
  | cons first rest induction =>
      simp only [List.cons_append, List.takeWhile_cons, induction]

theorem recognize?_append {mark : Char} (parts : Parts mark) (first : Char)
    (rest after : List Char) :
    recognize? first (rest ++ mark :: after) = recognize? first rest := by
  have head_eq : ((rest ++ mark :: after).head? == some '=') =
      (rest.head? == some '=') := by
    cases rest with
    | nil => simp [parts.notEqual]
    | cons next rest => rfl
  simp only [recognize?, head_eq, takeWhile_append_cons parts.notDigit,
    takeWhile_append_cons parts.notAlphanum]

theorem count_le_of_recognize? {first : Char} {rest : List Char}
    {kind : TokenKind} {count : Nat}
    (recognized : recognize? first rest = some (kind, count)) :
    count ≤ rest.length := by
  unfold recognize? at recognized
  split at recognized
  · cases recognized
    exact (List.takeWhile_sublist _).length_le
  · split at recognized
    · cases recognized
      exact (List.takeWhile_sublist _).length_le
    · split at recognized
      · next isEqual _ =>
        cases recognized
        cases rest with
        | nil => cases isEqual
        | cons next rest => exact Nat.succ_le_succ (Nat.zero_le _)
      · obtain ⟨_, _, same⟩ := Option.map_eq_some_iff.mp recognized
        cases same
        exact Nat.zero_le _

end TokenKind

namespace Cuts

/-- Two texts with a character between them that parts them are cut apart. -/
theorem append {characters after : List Char} {mark : Char}
    {pieces later : List (TokenKind × String)} (cuts : Cuts characters pieces)
    (parts : TokenKind.Parts mark) (cutsAfter : Cuts (mark :: after) later) :
    Cuts (characters ++ mark :: after) (pieces ++ later) := by
  induction cuts with
  | nil => exact cutsAfter
  | blank isBlank cuts induction => exact .blank isBlank induction
  | @piece first rest kind count pieces notBlank recognized cuts induction =>
      have count_le := TokenKind.count_le_of_recognize? recognized
      rw [← TokenKind.recognize?_append parts first rest after] at recognized
      rw [← List.drop_append_of_le_length count_le] at induction
      rw [← List.take_append_of_le_length count_le]
      exact .piece notBlank recognized induction

/-- A mark that spells nothing else together with an equal sign is a piece of
its own. -/
theorem mark {character : Char} {kind : TokenKind} {rest : List Char}
    {pieces : List (TokenKind × String)}
    (notBlank : Text.isBlank character = false)
    (notDigit : character.isDigit = false)
    (notAlpha : character.isAlpha = false)
    (notLonger : TokenKind.ofCharacterEqual? character = none)
    (isMark : TokenKind.ofCharacter? character = some kind)
    (cuts : Cuts rest pieces) :
    Cuts (character :: rest) ((kind, String.ofList [character]) :: pieces) := by
  have recognized : TokenKind.recognize? character rest = some (kind, 0) := by
    simp [TokenKind.recognize?, notDigit, notAlpha, notLonger, isMark]
  exact .piece notBlank recognized cuts

theorem comma {rest : List Char} {pieces : List (TokenKind × String)}
    (cuts : Cuts rest pieces) : Cuts (',' :: rest) ((.comma, ",") :: pieces) :=
  mark rfl rfl rfl rfl rfl cuts

theorem question {rest : List Char} {pieces : List (TokenKind × String)}
    (cuts : Cuts rest pieces) :
    Cuts ('?' :: rest) ((.question, "?") :: pieces) :=
  mark rfl rfl rfl rfl rfl cuts

theorem colon {rest : List Char} {pieces : List (TokenKind × String)}
    (cuts : Cuts rest pieces) : Cuts (':' :: rest) ((.colon, ":") :: pieces) :=
  mark rfl rfl rfl rfl rfl cuts

theorem leftParenthesis {rest : List Char} {pieces : List (TokenKind × String)}
    (cuts : Cuts rest pieces) :
    Cuts ('(' :: rest) ((.leftParenthesis, "(") :: pieces) :=
  mark rfl rfl rfl rfl rfl cuts

theorem rightParenthesis {rest : List Char} {pieces : List (TokenKind × String)}
    (cuts : Cuts rest pieces) :
    Cuts (')' :: rest) ((.rightParenthesis, ")") :: pieces) :=
  mark rfl rfl rfl rfl rfl cuts

end Cuts
end Calculator
