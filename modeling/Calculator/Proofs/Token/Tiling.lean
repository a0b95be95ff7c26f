import Calculator.Proofs.Token.Spacing

/-!
# Tokens tile their text

The tokens of a text stand in it one behind the other.  The span of a token
names the bytes of its lexeme, the lexeme is as long as its kind allows, and
whatever no token covers is blank.  So the text is its lexemes with blanks
around them.
-/

namespace Calculator

namespace Text

@[simp] theorem byteLength_nil : byteLength [] = 0 :=
  rfl

@[simp] theorem byteLength_cons (first : Char) (rest : List Char) :
    byteLength (first :: rest) = first.utf8Size + byteLength rest :=
  rfl

@[simp] theorem byteLength_append (before after : List Char) :
    byteLength (before ++ after) = byteLength before + byteLength after := by
  induction before with
  | nil => simp
  | cons first rest induction =>
      simp only [List.cons_append, byteLength_cons, induction, Nat.add_assoc]

theorem size_utf8Encode (characters : List Char) :
    characters.utf8Encode.size = byteLength characters := by
  induction characters with
  | nil => rfl
  | cons first rest induction =>
      rw [List.utf8Encode_cons, ByteArray.size_append, induction,
        List.utf8Encode_singleton, List.size_toByteArray,
        String.length_utf8EncodeChar, byteLength_cons]

theorem utf8ByteSize_eq (text : String) :
    text.utf8ByteSize = byteLength text.toList := by
  rw [← size_utf8Encode, ← String.toByteArray_ofList, String.ofList_toList,
    String.size_toByteArray]

/-- The bytes of a part of a text are those between its two ends. -/
theorem extract_utf8Encode (before part after : List Char) :
    (before ++ (part ++ after)).utf8Encode.extract (byteLength before)
        (byteLength before + byteLength part) =
      part.utf8Encode := by
  rw [← List.append_assoc, List.utf8Encode_append]
  have stop_eq : byteLength before + byteLength part =
      (before ++ part).utf8Encode.size := by
    rw [size_utf8Encode, byteLength_append]
  rw [stop_eq, ByteArray.extract_append_size_left, List.utf8Encode_append]
  apply ByteArray.extract_append_eq_right
  · rw [size_utf8Encode]
  · rw [ByteArray.size_append]

/-- A text is divided in only one way after so many bytes. -/
theorem append_inj_of_byteLength_eq {before after others rest : List Char}
    (same : before ++ after = others ++ rest)
    (length_eq : byteLength before = byteLength others) :
    before = others ∧ after = rest := by
  induction before generalizing others with
  | nil =>
      cases others with
      | nil => exact ⟨rfl, same⟩
      | cons other others =>
          have positive := other.utf8Size_pos
          simp only [byteLength_nil, byteLength_cons] at length_eq
          omega
  | cons first before induction =>
      cases others with
      | nil =>
          have positive := first.utf8Size_pos
          simp only [byteLength_nil, byteLength_cons] at length_eq
          omega
      | cons other others =>
          simp only [List.cons_append, List.cons.injEq] at same
          obtain ⟨rfl, same⟩ := same
          simp only [byteLength_cons, Nat.add_left_cancel_iff] at length_eq
          obtain ⟨rfl, rest_eq⟩ := induction same length_eq
          exact ⟨rfl, rest_eq⟩

end Text

theorem TokenKind.Spells.byteLength_pos {kind : TokenKind}
    {characters : List Char} (spells : kind.Spells characters) :
    0 < Text.byteLength characters := by
  obtain ⟨first, rest, rfl⟩ := spells.exists_cons
  exact Nat.lt_of_lt_of_le first.utf8Size_pos (Nat.le_add_right _ _)

namespace Token

/-- The token of a lexeme that starts at a column. -/
def placed (line column : Nat) (kind : TokenKind) (lexeme : List Char) :
    Token :=
  ⟨kind, String.ofList lexeme,
    .columns line column (column + Text.byteLength lexeme - 1)⟩

/-- The tokens of characters that start at a column: blanks are skipped, and
each lexeme is as long as its kind allows. -/
inductive Tiles (line : Nat) : Nat → List Char → List Token → Prop
  | nil {column} : Tiles line column [] []
  | blank {column first rest tokens} (isBlank : Text.isBlank first = true)
      (tiles : Tiles line (column + first.utf8Size) rest tokens) :
      Tiles line column (first :: rest) tokens
  | lexeme {column kind lexeme after tokens} (spells : kind.Spells lexeme)
      (ends : ∀ next ∈ after.head?, kind.continues next = false)
      (tiles : Tiles line (column + Text.byteLength lexeme) after tokens) :
      Tiles line column (lexeme ++ after)
        (placed line column kind lexeme :: tokens)

theorem tiles_of_scanFrom {line column : Nat} {before tokens : List Token}
    {characters : List Char}
    (scanned : scanFrom line column before characters = .ok tokens) :
    ∃ later, tokens = before.reverse ++ later ∧
      Tiles line column characters later := by
  fun_induction scanFrom line column before characters with
  | case1 column before =>
      cases scanned
      exact ⟨[], (List.append_nil _).symm, .nil⟩
  | case2 column before first rest isBlank induction =>
      obtain ⟨later, tokens_eq, tiles⟩ := induction scanned
      exact ⟨later, tokens_eq, .blank isBlank tiles⟩
  | case3 => cases scanned
  | case4 column before first rest notBlank kind count recognized characters
      next token induction =>
      obtain ⟨later, tokens_eq, tiles⟩ := induction scanned
      refine ⟨token :: later, ?_, ?_⟩
      · rw [tokens_eq, List.reverse_cons, List.append_assoc]
        rfl
      · have spells := TokenKind.spells_of_recognize? recognized
        have count_eq : (rest.take count).length = count := by
          rw [List.length_take,
            Nat.min_eq_left (TokenKind.count_le_of_recognize? recognized)]
        have ends : ∀ next ∈ (rest.drop count).head?,
            kind.continues next = false := by
          rw [← TokenKind.recognize?_append_eq_some_iff spells,
            List.take_append_drop, count_eq]
          exact recognized
        have tilesAll := Tiles.lexeme spells ends tiles
        rw [List.cons_append, List.take_append_drop] at tilesAll
        exact tilesAll

/-- A text that is cut into tokens is tiled by them from the first column on.
-/
theorem tiles_of_scan {line : Nat} {text : String} {tokens : List Token}
    (scanned : scan line text = .ok tokens) :
    Tiles line 1 text.toList tokens := by
  obtain ⟨later, rfl, tiles⟩ := tiles_of_scanFrom scanned
  exact tiles

namespace Tiles

variable {line column : Nat} {characters : List Char} {tokens : List Token}

/-- Every token is a lexeme with something before and behind it. -/
theorem exists_part (tiles : Tiles line column characters tokens)
    {token : Token}
    (given : token ∈ tokens) :
    ∃ before kind lexeme after, characters = before ++ (lexeme ++ after) ∧
      token = placed line (column + Text.byteLength before) kind lexeme ∧
      kind.Spells lexeme ∧
      ∀ next ∈ after.head?, kind.continues next = false := by
  induction tiles with
  | nil => cases given
  | @blank column first rest tokens isBlank tiles induction =>
      obtain ⟨before, kind, lexeme, after, rfl, token_eq, whole⟩ :=
        induction given
      rw [Nat.add_assoc, ← Text.byteLength_cons] at token_eq
      exact ⟨first :: before, kind, lexeme, after, rfl, token_eq, whole⟩
  | @lexeme column kind lexeme after tokens spells ends tiles induction =>
      rcases List.mem_cons.mp given with rfl | later
      · exact ⟨[], kind, lexeme, after, rfl, rfl, spells, ends⟩
      · obtain ⟨before, kind', lexeme', after', rfl, token_eq, whole⟩ :=
          induction later
        rw [Nat.add_assoc, ← Text.byteLength_append] at token_eq
        exact ⟨lexeme ++ before, kind', lexeme', after',
          (List.append_assoc ..).symm, token_eq, whole⟩

/-- The tokens stand one behind the other. -/
theorem pairwise (tiles : Tiles line column characters tokens) :
    tokens.Pairwise fun earlier later =>
      ∀ first last first' last', earlier.span = .columns line first last →
        later.span = .columns line first' last' → last < first' := by
  induction tiles with
  | nil => exact .nil
  | blank _ _ induction => exact induction
  | lexeme spells _ tiles induction =>
      refine .cons ?_ induction
      intro later given first last first' last' here there
      obtain ⟨before, kind, lexeme, after, -, rfl, -, -⟩ :=
        tiles.exists_part given
      have positive := spells.byteLength_pos
      cases here
      cases there
      omega

/-- A character with a byte that no token covers is blank. -/
theorem isBlank_of_uncovered (tiles : Tiles line column characters tokens)
    {before after : List Char} {character : Char} {place : Nat}
    (characters_eq : characters = before ++ character :: after)
    (le_place : column + Text.byteLength before ≤ place)
    (place_lt :
      place < column + Text.byteLength before + character.utf8Size)
    (uncovered : ∀ token ∈ tokens, ∀ first last,
      token.span = .columns line first last → ¬(first ≤ place ∧ place ≤ last)) :
    Text.isBlank character = true := by
  induction tiles generalizing before with
  | nil => simp at characters_eq
  | @blank column first rest tokens isBlank tiles induction =>
      cases before with
      | nil =>
          obtain ⟨rfl, -⟩ := List.cons.inj characters_eq
          exact isBlank
      | cons other before =>
          obtain ⟨rfl, rest_eq⟩ := List.cons.inj characters_eq
          rw [Text.byteLength_cons, ← Nat.add_assoc] at le_place place_lt
          exact induction rest_eq le_place place_lt uncovered
  | @lexeme column kind lexeme behind tokens spells ends tiles induction =>
      obtain ⟨notHere, notLater⟩ := List.forall_mem_cons.mp uncovered
      rcases List.append_eq_append_iff.mp characters_eq with
        ⟨more, before_eq, behind_eq⟩ | ⟨more, lexeme_eq, later_eq⟩
      · rw [before_eq, Text.byteLength_append, ← Nat.add_assoc]
          at le_place place_lt
        exact induction behind_eq le_place place_lt notLater
      · cases more with
        | nil =>
            rw [List.append_nil] at lexeme_eq
            rw [← lexeme_eq] at le_place place_lt
            have behind_eq : behind = [] ++ character :: after :=
              later_eq.symm
            exact induction behind_eq le_place place_lt notLater
        | cons other more =>
            obtain ⟨rfl, -⟩ := List.cons.inj later_eq
            -- The character is one of the lexeme, which covers its bytes.
            refine absurd ⟨?_, ?_⟩ (notHere column _ rfl)
            · omega
            · simp only [lexeme_eq, Text.byteLength_append,
                Text.byteLength_cons]
              omega

/-- The characters are the lexemes with blanks around them. -/
theorem exists_written (tiles : Tiles line column characters tokens) :
    ∃ lexemes after, (SpacedLexeme.written lexemes after).toList = characters ∧
      lexemes.map SpacedLexeme.piece = tokens.map piece := by
  induction tiles with
  | nil => exact ⟨[], ⟨"", by simp⟩, rfl, rfl⟩
  | @blank column first rest tokens isBlank tiles induction =>
      obtain ⟨lexemes, after, written_eq, pieces_eq⟩ := induction
      have prepend (blanks : Blanks) : ∀ character ∈
          (String.ofList (first :: blanks.text.toList)).toList,
          Text.isBlank character = true := by
        rw [String.toList_ofList]
        exact List.forall_mem_cons.mpr ⟨isBlank, blanks.isBlank⟩
      cases lexemes with
      | nil =>
          refine ⟨[], ⟨_, prepend after⟩, ?_, pieces_eq⟩
          rw [SpacedLexeme.written, String.toList_ofList]
          exact congrArg (first :: ·) written_eq
      | cons spaced later =>
          refine ⟨{ spaced with before := ⟨_, prepend spaced.before⟩ } :: later,
            after, ?_, pieces_eq⟩
          rw [SpacedLexeme.toList_written_cons] at written_eq ⊢
          rw [String.toList_ofList, List.cons_append, written_eq]
  | @lexeme column kind lexeme after tokens spells ends tiles induction =>
      obtain ⟨lexemes, blanks, written_eq, pieces_eq⟩ := induction
      refine ⟨⟨⟨"", by simp⟩, kind, String.ofList lexeme, ?_⟩ :: lexemes,
        blanks, ?_, ?_⟩
      · rw [String.toList_ofList]
        exact spells
      · rw [SpacedLexeme.toList_written_cons, written_eq]
        simp only [String.toList_empty, String.toList_ofList, List.nil_append]
      · rw [List.map_cons, List.map_cons, pieces_eq]
        rfl

end Tiles

/-- The tokens cover their text but for blanks, one behind the other, and none
of them could be longer.  Columns count bytes from one. -/
structure Tiling (line : Nat) (text : String) (tokens : List Token) :
    Prop where
  bytes : ∀ token ∈ tokens, ∃ first last,
    token.span = .columns line first last ∧ 1 ≤ first ∧ first ≤ last ∧
      last ≤ text.utf8ByteSize ∧
      text.toUTF8.extract (first - 1) last = token.lexeme.toUTF8
  increasing : tokens.Pairwise fun earlier later =>
    ∀ first last first' last', earlier.span = .columns line first last →
      later.span = .columns line first' last' → last < first'
  blank : ∀ before character after place,
    text.toList = before ++ character :: after →
      Text.byteLength before < place →
      place ≤ Text.byteLength before + character.utf8Size →
      (∀ token ∈ tokens, ∀ first last, token.span = .columns line first last →
        ¬(first ≤ place ∧ place ≤ last)) →
      Text.isBlank character = true
  recovered : ∃ lexemes after, text = SpacedLexeme.written lexemes after ∧
    lexemes.map SpacedLexeme.piece = tokens.map piece
  shape : ∀ token ∈ tokens, token.kind.Spells token.lexeme.toList
  maximal : ∀ token ∈ tokens, ∀ first last before next after,
    token.span = .columns line first last →
      text.toList = before ++ next :: after →
      Text.byteLength before = last → token.kind.continues next = false

/-- The tokens that a text is cut into tile it. -/
theorem tiling_of_scan {line : Nat} {text : String} {tokens : List Token}
    (scanned : scan line text = .ok tokens) : Tiling line text tokens := by
  have tiles := tiles_of_scan scanned
  refine ⟨?_, tiles.pairwise, ?_, ?_, spells_of_scan scanned, ?_⟩
  · intro token given
    obtain ⟨before, kind, lexeme, after, text_eq, rfl, spells, -⟩ :=
      tiles.exists_part given
    have positive := spells.byteLength_pos
    refine ⟨_, _, rfl, ?_, ?_, ?_, ?_⟩
    · omega
    · omega
    · rw [Text.utf8ByteSize_eq, text_eq, Text.byteLength_append,
        Text.byteLength_append]
      omega
    · have first_eq : 1 + Text.byteLength before - 1 =
          Text.byteLength before := by
        omega
      have last_eq : 1 + Text.byteLength before + Text.byteLength lexeme - 1 =
          Text.byteLength before + Text.byteLength lexeme := by
        omega
      rw [first_eq, last_eq, String.toUTF8_eq_toByteArray,
        ← @String.ofList_toList text, String.toByteArray_ofList, text_eq,
        Text.extract_utf8Encode, placed, String.toUTF8_eq_toByteArray,
        String.toByteArray_ofList]
  · intro before character after place text_eq lt_place place_le uncovered
    exact tiles.isBlank_of_uncovered text_eq (by omega) (by omega) uncovered
  · obtain ⟨lexemes, after, written_eq, pieces_eq⟩ := tiles.exists_written
    exact ⟨lexemes, after, (String.toList_inj.mp written_eq).symm, pieces_eq⟩
  · intro token given first last before next after span_eq text_eq length_eq
    obtain ⟨earlier, kind, lexeme, later, parts_eq, rfl, spells, ends⟩ :=
      tiles.exists_part given
    cases span_eq
    have positive := spells.byteLength_pos
    rw [text_eq, ← List.append_assoc] at parts_eq
    obtain ⟨-, later_eq⟩ :=
      Text.append_inj_of_byteLength_eq parts_eq (by
        rw [length_eq, Text.byteLength_append]
        omega)
    exact ends next (by rw [← later_eq]; rfl)

/-- A blank of two bytes and one of three move the tokens behind them. -/
theorem tiling_of_wide_blanks :
    let text := "x1\u00a0<=\u300012"
    let tokens : List Token :=
      [⟨.name, "x1", .columns 3 1 2⟩, ⟨.lessEqual, "<=", .columns 3 5 6⟩,
        ⟨.number, "12", .columns 3 10 11⟩]
    scan 3 text = .ok tokens ∧ Tiling 3 text tokens := by
  intro text tokens
  have scanned : scan 3 text = .ok tokens := by decide +kernel
  exact ⟨scanned, tiling_of_scan scanned⟩

end Token
end Calculator
