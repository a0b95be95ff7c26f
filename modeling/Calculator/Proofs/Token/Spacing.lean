import Mathlib.Data.List.Chain
import Calculator.Proofs.Token.Shape

/-!
# Blanks between lexemes

Lexemes are written one after the other with blanks before, between and after
them.  The text is cut into the same lexemes again exactly if there is a blank
wherever two neighbours would otherwise merge.  This is so for two numbers, for
a name before a name or a number, and for one of the operators that an equal
sign makes longer before an equal sign.
-/

namespace Calculator

namespace TokenKind

/-- Whether a lexeme of one kind and a lexeme of another right behind it are not
read as these two. -/
def merges : TokenKind → TokenKind → Bool
  | .number, .number | .name, .name | .name, .number => true
  | .less, .equal | .less, .equalEqual => true
  | .greater, .equal | .greater, .equalEqual => true
  | .equal, .equal | .equal, .equalEqual => true
  | _, _ => false

/-- A lexeme is continued by the first character of another exactly if the two
merge. -/
theorem continues_eq_merges {kind other : TokenKind} {first : Char}
    {rest : List Char} (spells : other.Spells (first :: rest)) :
    kind.continues first = kind.merges other := by
  cases spells with
  | number isDigit _ =>
      have isAlphanum : first.isAlphanum = true := by
        rw [Char.isAlphanum, isDigit, Bool.or_true]
      have notEqual : (first == '=') = false := by
        rw [beq_eq_false_iff_ne]
        rintro rfl
        cases isDigit
      cases kind <;> first | rfl | assumption
  | name isAlpha _ =>
      have notDigit := Text.notDigit_of_isAlpha isAlpha
      have isAlphanum : first.isAlphanum = true := by
        rw [Char.isAlphanum, isAlpha, Bool.true_or]
      have notEqual : (first == '=') = false := by
        rw [beq_eq_false_iff_ne]
        rintro rfl
        cases isAlpha
      cases kind <;> first | rfl | assumption
  | mark isMark => cases other <;> cases isMark <;> cases kind <;> rfl

end TokenKind

/-- A text of blanks. -/
structure Blanks where
  text : String
  isBlank : ∀ character ∈ text.toList, Text.isBlank character = true

/-- A lexeme of some kind with the blanks in front of it. -/
structure SpacedLexeme where
  before : Blanks
  kind : TokenKind
  lexeme : String
  spells : kind.Spells lexeme.toList

namespace SpacedLexeme

/-- The piece that a lexeme is. -/
def piece (spaced : SpacedLexeme) : TokenKind × String :=
  (spaced.kind, spaced.lexeme)

/-- The text of some lexemes and the blanks between and after them. -/
def written (lexemes : List SpacedLexeme) (after : Blanks) : String :=
  match lexemes with
  | [] => after.text
  | first :: later => first.before.text ++ first.lexeme ++ written later after

/-- There are blanks between two lexemes that would merge. -/
def Apart (first second : SpacedLexeme) : Prop :=
  first.kind.merges second.kind = true → second.before.text ≠ ""

theorem toList_written_cons (first : SpacedLexeme) (later : List SpacedLexeme)
    (after : Blanks) :
    (written (first :: later) after).toList =
      first.before.text.toList ++
        (first.lexeme.toList ++ (written later after).toList) := by
  rw [written, String.toList_append, String.toList_append, List.append_assoc]

theorem not_continues_blanks (kind : TokenKind) (blanks : Blanks) :
    ∀ next ∈ blanks.text.toList.head?, kind.continues next = false := by
  intro next isFirst
  exact TokenKind.not_continues_of_isBlank
    (blanks.isBlank next (List.mem_of_mem_head? isFirst)) kind

/-- What is written behind a lexeme does not continue it exactly if the next
lexeme is apart from it. -/
theorem not_continues_written_iff (first second : SpacedLexeme)
    (later : List SpacedLexeme) (after : Blanks) :
    (∀ next ∈ (written (second :: later) after).toList.head?,
        first.kind.continues next = false) ↔
      first.Apart second := by
  rw [toList_written_cons, Apart]
  cases before_eq : second.before.text.toList with
  | nil =>
      have noBlanks : second.before.text = "" :=
        String.toList_eq_nil_iff.mp before_eq
      obtain ⟨character, rest, lexeme_eq⟩ := second.spells.exists_cons
      have spells := second.spells
      rw [lexeme_eq] at spells
      rw [lexeme_eq, ← TokenKind.continues_eq_merges spells]
      simp [noBlanks]
  | cons blank blanks =>
      have someBlanks : second.before.text ≠ "" := by
        intro none
        rw [none] at before_eq
        cases before_eq
      have starts := not_continues_blanks first.kind second.before
      rw [before_eq] at starts
      simp only [List.cons_append, List.head?_cons] at starts ⊢
      exact ⟨fun _ _ => someBlanks, fun _ => starts⟩

theorem cuts_written_iff (lexemes : List SpacedLexeme) (after : Blanks) :
    Cuts (written lexemes after).toList (lexemes.map piece) ↔
      lexemes.IsChain Apart := by
  induction lexemes with
  | nil =>
      have cuts : Cuts after.text.toList [] := by
        rw [← List.append_nil after.text.toList,
          Cuts.blanks_append_iff after.isBlank]
        exact .nil
      exact ⟨fun _ => .nil, fun _ => cuts⟩
  | cons first later induction =>
      rw [toList_written_cons, Cuts.blanks_append_iff first.before.isBlank,
        List.map_cons]
      simp only [piece]
      rw [Cuts.lexeme_append_iff first.spells, induction]
      cases later with
      | nil =>
          have ends := not_continues_blanks first.kind after
          exact ⟨fun _ => .singleton first, fun _ => ⟨ends, .nil⟩⟩
      | cons second later =>
          rw [not_continues_written_iff, List.isChain_cons_cons]

/-- Lexemes that are written with any blanks before, between and after them are
read back, in any line, if and only if those that would merge are apart. -/
theorem scan_written_iff (line : Nat) (lexemes : List SpacedLexeme)
    (after : Blanks) :
    (∃ tokens, Token.scan line (written lexemes after) = .ok tokens ∧
        tokens.map Token.piece = lexemes.map piece) ↔
      lexemes.IsChain Apart := by
  rw [← cuts_written_iff lexemes after]
  constructor
  · rintro ⟨tokens, scanned, pieces_eq⟩
    rw [← pieces_eq]
    exact Token.cuts_of_scan scanned
  · intro cuts
    exact Token.scan_of_cuts cuts line

end SpacedLexeme
end Calculator
