import Calculator.Expr.Text
import Calculator.Proofs.Grammar.Names
import Calculator.Proofs.Text.Decimal
import Calculator.Proofs.Token.Shape

/-!
# The pieces of infix texts

The infix text of a tree with identifiers for names is cut into the parentheses,
signs, names and numbers that it was put together from.
-/

namespace Calculator

/-- The kind of the token that an operator is written as. -/
def Operator.kind : Operator → TokenKind
  | .plus => .plus
  | .minus => .minus
  | .times => .star
  | .divide => .slash
  | .modulo => .percent
  | .equal => .equalEqual
  | .notEqual => .notEqual
  | .lessEqual => .lessEqual
  | .less => .less
  | .greaterEqual => .greaterEqual
  | .greater => .greater

theorem Operator.spells_symbol (operator : Operator) :
    operator.kind.Spells operator.symbol.toList := by
  cases operator <;> exact .mark rfl

namespace Decimal

/-- The pieces of a number; its sign is a piece of its own. -/
def pieces (value : Int64) : List (TokenKind × String) :=
  let magnitude := (.number, String.ofList (digits value.toInt.natAbs))
  if value < 0 then [(.minus, "-"), magnitude] else [magnitude]

/-- A number without a sign is one piece. -/
theorem pieces_of_nonneg {value : Int64} (nonneg : 0 ≤ value) :
    pieces value = [(.number, text value)] := by
  have notNegative : ¬value < 0 := Int64.not_lt.mpr nonneg
  simp only [pieces, text, notNegative, if_false]

theorem spells_digits (number : Nat) :
    TokenKind.number.Spells (digits number) := by
  have every : ∀ character ∈ digits number, character.isDigit = true :=
    fun _ => isDigit_of_mem_digits
  obtain ⟨first, rest, digits_eq⟩ := List.exists_cons_of_ne_nil
    (digits_ne_nil number)
  rw [digits_eq] at every ⊢
  obtain ⟨isDigit, others⟩ := List.forall_mem_cons.mp every
  exact .number isDigit others

end Decimal

/-- Pieces with parentheses around them. -/
def parenthesized (pieces : List (TokenKind × String)) :
    List (TokenKind × String) :=
  (.leftParenthesis, "(") :: (pieces ++ [(.rightParenthesis, ")")])

namespace Expr

mutual

/-- The pieces of the infix text of a tree. -/
def pieces : Expr → List (TokenKind × String)
  | .literal value _ => Decimal.pieces value
  | .var name => [(.name, name.text)]
  | .binary operator left right =>
      parenthesized
        (left.pieces ++ (operator.kind, operator.symbol) :: right.pieces)
  | .assign target value =>
      parenthesized (target.pieces ++ (.equal, "=") :: value.pieces)
  | .conditional test onTrue onFalse =>
      parenthesized (test.pieces ++ (.question, "?") ::
        (onTrue.pieces ++ (.colon, ":") :: onFalse.pieces))
  | .call callee arguments _ =>
      (.name, callee.text) :: parenthesized (argumentPieces arguments)

/-- The pieces of trees with commas between them. -/
def argumentPieces : List Expr → List (TokenKind × String)
  | [] => []
  | first :: rest => first.pieces ++ laterPieces rest

/-- The pieces of trees with a comma in front of each. -/
def laterPieces : List Expr → List (TokenKind × String)
  | [] => []
  | next :: rest => (.comma, ",") :: (next.pieces ++ laterPieces rest)

end

end Expr

namespace Cuts

theorem lexeme {kind : TokenKind} {lexeme : String}
    (spells : kind.Spells lexeme.toList) :
    Cuts lexeme.toList [(kind, lexeme)] := by
  rw [← List.append_nil lexeme.toList, lexeme_append_iff spells]
  exact ⟨fun _ isNext => (Option.not_mem_none _ isNext).elim, .nil⟩

/-- A blank ends a lexeme. -/
theorem lexeme_space {kind : TokenKind} {lexeme : String} {after : List Char}
    {pieces : List (TokenKind × String)} (spells : kind.Spells lexeme.toList)
    (cuts : Cuts after pieces) :
    Cuts (lexeme.toList ++ ' ' :: after) ((kind, lexeme) :: pieces) := by
  refine (lexeme_append_iff spells).mpr ⟨fun next isNext => ?_, .blank rfl cuts⟩
  cases isNext
  exact TokenKind.not_continues_of_isBlank rfl kind

theorem equal_space {after : List Char} {pieces : List (TokenKind × String)}
    (cuts : Cuts after pieces) :
    Cuts ('=' :: ' ' :: after) ((.equal, "=") :: pieces) :=
  @lexeme_space .equal "=" _ _ (.mark rfl) cuts

theorem decimal (value : Int64) :
    Cuts (Decimal.text value).toList (Decimal.pieces value) := by
  have spells := Decimal.spells_digits value.toInt.natAbs
  rw [← @String.toList_ofList (Decimal.digits _)] at spells
  have cuts := lexeme spells
  rw [String.toList_ofList] at cuts
  rw [Decimal.text, Decimal.pieces, String.toList_ofList]
  split
  · exact mark rfl rfl rfl rfl rfl cuts
  · exact cuts

/-- Two texts are cut apart if the second begins with a character that parts
them. -/
theorem append_of_parts {characters after : List Char}
    {pieces later : List (TokenKind × String)} (cuts : Cuts characters pieces)
    (cutsAfter : Cuts after later)
    (parts : ∀ mark ∈ after.head?, TokenKind.Parts mark) :
    Cuts (characters ++ after) (pieces ++ later) := by
  cases after with
  | nil =>
      cases cutsAfter
      rwa [List.append_nil, List.append_nil]
  | cons mark after => exact cuts.append (parts mark rfl) cutsAfter

end Cuts

namespace Expr

/-- Texts with a separator in front of each. -/
def laterTexts (separator : String) (texts : List String) : List Char :=
  texts.flatMap fun text => separator.toList ++ text.toList

theorem toList_intercalate_eq (separator first : String) (rest : List String) :
    (separator.intercalate (first :: rest)).toList =
      first.toList ++ laterTexts separator rest := by
  induction rest generalizing first with
  | nil => simp [laterTexts]
  | cons next rest induction =>
      rw [String.intercalate_cons_cons, String.toList_append,
        String.toList_append, induction, laterTexts, laterTexts,
        List.flatMap_cons, List.append_assoc, List.append_assoc]

/-- Texts with a comma in front of each. -/
def laterText (texts : List String) : List Char :=
  texts.flatMap fun text => ',' :: text.toList

theorem toList_intercalate_cons (first : String) (rest : List String) :
    (",".intercalate (first :: rest)).toList =
      first.toList ++ laterText rest :=
  toList_intercalate_eq "," first rest

theorem parts_laterText (texts : List String) :
    ∀ mark ∈ (laterText texts).head?, TokenKind.Parts mark := by
  intro mark isFirst
  cases texts with
  | nil => cases isFirst
  | cons next rest =>
      cases isFirst
      exact .comma

mutual

/-- The infix text of a tree whose names are identifiers is cut into its
pieces. -/
theorem cuts_infixText : (expression : Expr) →
    (∀ name ∈ expression.names, IsIdentifier name) →
      Cuts expression.infixText.toList expression.pieces
  | .literal value _, _ => .decimal value
  | .var name, identifiers => .lexeme (identifiers name.text (by simp))
  | .binary operator left right, identifiers => by
      rw [names_binary, List.forall_mem_append] at identifiers
      have cutsLeft := cuts_infixText left identifiers.1
      have cutsRight := cuts_infixText right identifiers.2
      simp only [infixText, pieces, parenthesized, String.toList_append,
        List.append_assoc, List.cons_append]
      exact .leftParenthesis (cutsLeft.append .space (.blank rfl
        (.lexeme_space operator.spells_symbol (cutsRight.append
          .rightParenthesis (.rightParenthesis .nil)))))
  | .assign target value, identifiers => by
      rw [names_assign, List.forall_mem_append] at identifiers
      have cutsTarget := cuts_infixText target identifiers.1
      have cutsValue := cuts_infixText value identifiers.2
      simp only [infixText, pieces, parenthesized, String.toList_append,
        List.append_assoc, List.cons_append]
      exact .leftParenthesis (cutsTarget.append .space (.blank rfl
        (.equal_space (cutsValue.append
          .rightParenthesis (.rightParenthesis .nil)))))
  | .conditional test onTrue onFalse, identifiers => by
      simp only [names_conditional, List.forall_mem_append] at identifiers
      have cutsTest := cuts_infixText test identifiers.1
      have cutsTrue := cuts_infixText onTrue identifiers.2.1
      have cutsFalse := cuts_infixText onFalse identifiers.2.2
      simp only [infixText, pieces, parenthesized, String.toList_append,
        List.append_assoc, List.cons_append]
      exact .leftParenthesis (cutsTest.append .space (.blank rfl
        (.question (.blank rfl (cutsTrue.append .space (.blank rfl
          (.colon (.blank rfl (cutsFalse.append
            .rightParenthesis (.rightParenthesis .nil))))))))))
  | .call callee arguments _, identifiers => by
      rw [names_call, List.forall_mem_cons] at identifiers
      have cutsCallee := Cuts.lexeme identifiers.1
      have cutsArguments := cuts_arguments arguments identifiers.2
      simp only [infixText, pieces, parenthesized, String.toList_append,
        List.append_assoc]
      exact cutsCallee.append .leftParenthesis (.leftParenthesis
        (cutsArguments.append .rightParenthesis (.rightParenthesis .nil)))

theorem cuts_arguments : (arguments : List Expr) →
    (∀ name ∈ namesOfAll arguments, IsIdentifier name) →
      Cuts (",".intercalate (infixTexts arguments)).toList
        (argumentPieces arguments)
  | [], _ => .nil
  | first :: rest, identifiers => by
      rw [namesOfAll_cons, List.forall_mem_append] at identifiers
      rw [infixTexts, toList_intercalate_cons, argumentPieces]
      exact (cuts_infixText first identifiers.1).append_of_parts
        (cuts_laterText rest identifiers.2) (parts_laterText _)

theorem cuts_laterText : (arguments : List Expr) →
    (∀ name ∈ namesOfAll arguments, IsIdentifier name) →
      Cuts (laterText (infixTexts arguments)) (laterPieces arguments)
  | [], _ => .nil
  | next :: rest, identifiers => by
      rw [namesOfAll_cons, List.forall_mem_append] at identifiers
      rw [infixTexts, laterText, List.flatMap_cons, laterPieces]
      exact .comma ((cuts_infixText next identifiers.1).append_of_parts
        (cuts_laterText rest identifiers.2) (parts_laterText _))

end

end Expr
end Calculator
