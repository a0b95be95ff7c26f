import Calculator.Proofs.Grammar.Spans
import Calculator.Proofs.Text.Decimal

/-!
# The numbers in a tree

A number in a tree that is read off some tokens stands at the place of one of
them: of a number token with its value, or of a minus sign, which is read as a
subtraction from zero.  Since the tokens of a text stand one behind the other,
the place tells which of them it is.
-/

namespace Calculator

namespace Token

/-- The value of a number token that is spelled as such is the number of its
digits, wrapped around. -/
theorem numeral_of_spells {token : Token} (isNumber : token.kind = .number)
    (spells : token.kind.Spells token.lexeme.toList) :
    token.numeral = Int64.ofNat (Decimal.number token.lexeme.toList) := by
  rw [numeral]
  generalize token.lexeme.toList = digits at spells ⊢
  rw [isNumber] at spells
  cases spells with
  | mark isMark => cases isMark
  | @number first rest isDigit others =>
      have unsigned : Decimal.integer (first :: rest) =
          Decimal.number (first :: rest) := by
        unfold Decimal.integer
        split
        · next signed =>
          cases signed
          cases isDigit
        · rfl
      rw [unsigned, Int64.ofInt_eq_ofNat]

/-- The number that is written at a place, or zero if there is none. -/
def numberAt (tokens : List Token) (place : Span) : Nat :=
  match tokens.find? fun token =>
      token.kind == .number && token.span == place with
  | some token => Decimal.number token.lexeme.toList
  | none => 0

section Rows

variable {line low high : Nat} {tokens : List Token}

/-- A token of a row covers columns from its first one on. -/
theorem Row.exists_columns (row : Row line low tokens high) {token : Token}
    (given : token ∈ tokens) :
    ∃ first last, token.span = .columns line first last ∧ low ≤ first ∧
      first ≤ last := by
  induction row with
  | nil => cases given
  | cons span_eq low_le first_le last_le row induction =>
      rcases List.mem_cons.mp given with rfl | later
      · exact ⟨_, _, span_eq, low_le, first_le⟩
      · obtain ⟨first, last, later_eq, le_first, first_le⟩ := induction later
        exact ⟨first, last, later_eq, by omega, first_le⟩

/-- In a row, no two tokens stand at the same place. -/
theorem Row.eq_of_span_eq (row : Row line low tokens high)
    {token other : Token} (given : token ∈ tokens) (otherGiven : other ∈ tokens)
    (same : token.span = other.span) : token = other := by
  induction row with
  | nil => cases given
  | @cons low head first last rest high span_eq low_le first_le last_le row
      induction =>
      have apart : ∀ later ∈ rest, head.span ≠ later.span := by
        intro later member same
        obtain ⟨_, _, later_eq, le_first, _⟩ := row.exists_columns member
        rw [span_eq, later_eq, Span.columns_inj] at same
        omega
      rcases List.mem_cons.mp given with rfl | later
      · rcases List.mem_cons.mp otherGiven with rfl | otherLater
        · rfl
        · exact absurd same (apart other otherLater)
      · rcases List.mem_cons.mp otherGiven with rfl | otherLater
        · exact absurd same.symm (apart token later)
        · exact induction later otherLater

/-- At the place of a number token its own number is written. -/
theorem Row.numberAt_of_number (row : Row line low tokens high) {token : Token}
    (given : token ∈ tokens) (isNumber : token.kind = .number) :
    numberAt tokens token.span = Decimal.number token.lexeme.toList := by
  cases found : tokens.find? fun other =>
      other.kind == .number && other.span == token.span with
  | none =>
      have absent := List.find?_eq_none.mp found token given
      simp [isNumber] at absent
  | some other =>
      have matching := List.find?_some found
      simp only [Bool.and_eq_true, beq_iff_eq] at matching
      have same := row.eq_of_span_eq (List.mem_of_find?_eq_some found) given
        matching.2
      rw [numberAt, found, same]

/-- At the place of another token no number is written. -/
theorem Row.numberAt_of_not_number (row : Row line low tokens high)
    {token : Token} (given : token ∈ tokens)
    (notNumber : token.kind ≠ .number) : numberAt tokens token.span = 0 := by
  cases found : tokens.find? fun other =>
      other.kind == .number && other.span == token.span with
  | none => rw [numberAt, found]
  | some other =>
      have matching := List.find?_some found
      simp only [Bool.and_eq_true, beq_iff_eq] at matching
      have same := row.eq_of_span_eq (List.mem_of_find?_eq_some found) given
        matching.2
      rw [same] at matching
      exact absurd matching.1 notNumber

end Rows

end Token

namespace Grammar

/-- The number stands at the place of a token that it is read off. -/
inductive ReadsLiteral (value : Int64) (token : Token) : Prop
  | number (isNumber : token.kind = .number) (value_eq : value = token.numeral)
  | sign (isMinus : token.kind = .minus) (value_eq : value = 0)

/-- Every number among some trees stands at the place of one of the tokens. -/
def LiteralsIn (tokens : List Token) (nodes : List Expr) : Prop :=
  ∀ value place, .literal value place ∈ nodes →
    ∃ token ∈ tokens, token.span = place ∧ ReadsLiteral value token

namespace LiteralsIn

variable {tokens others : List Token} {nodes more : List Expr}

theorem mono (literals : LiteralsIn tokens nodes) (subset : tokens ⊆ others) :
    LiteralsIn others nodes := by
  intro value place member
  obtain ⟨token, given, span_eq, reads⟩ := literals value place member
  exact ⟨token, subset given, span_eq, reads⟩

theorem nil : LiteralsIn tokens [] :=
  nofun

theorem literal {value : Int64} {token : Token} (given : token ∈ tokens)
    (reads : ReadsLiteral value token) :
    LiteralsIn tokens (Expr.literal value token.span).nodes := by
  intro other place member
  rw [Expr.nodes, List.mem_singleton, Expr.literal.injEq] at member
  obtain ⟨rfl, rfl⟩ := member
  exact ⟨token, given, rfl, reads⟩

/-- A tree that is no number adds none to those of its children. -/
theorem of_children {whole : Expr}
    (literals : LiteralsIn tokens (Expr.nodesOfAll whole.children))
    (noLiteral : ∀ value place, whole ≠ .literal value place) :
    LiteralsIn tokens whole.nodes := by
  rw [Expr.nodes_eq_children]
  intro value place member
  rcases List.mem_cons.mp member with same | inside
  · exact absurd same.symm (noLiteral value place)
  · exact literals value place inside

theorem append (literals : LiteralsIn tokens nodes)
    (literalsMore : LiteralsIn tokens more) :
    LiteralsIn tokens (nodes ++ more) := by
  intro value place member
  rcases List.mem_append.mp member with inside | insideMore
  · exact literals value place inside
  · exact literalsMore value place insideMore

theorem cons {first : Expr} {rest : List Expr}
    (literals : LiteralsIn tokens first.nodes)
    (literalsRest : LiteralsIn tokens (Expr.nodesOfAll rest)) :
    LiteralsIn tokens (Expr.nodesOfAll (first :: rest)) := by
  rw [Expr.nodesOfAll]
  exact literals.append literalsRest

end LiteralsIn

mutual

/-- The numbers in a tree that is read come from its tokens. -/
theorem Reads.literalsIn {category : Category} {tokens rest : List Token}
    {expression : Expr} {entries : Nat} :
    Reads category tokens expression rest entries →
      LiteralsIn tokens expression.nodes
  | .number isNumber => .literal List.mem_cons_self (.number isNumber rfl)
  | .name _ _ | .emptyCall _ _ _ => .of_children .nil nofun
  | .parentheses _ inner _ => inner.literalsIn.mono (List.subset_cons_self ..)
  | @Reads.negation sign behind _ _ _ isMinus product _ => by
      have zero : LiteralsIn (sign :: behind)
          (Expr.literal 0 sign.span).nodes :=
        .literal List.mem_cons_self (.sign isMinus rfl)
      have operand := product.literalsIn.mono (List.subset_cons_self sign _)
      exact .of_children (.cons zero (.cons operand .nil)) nofun
  | .call _ _ given _ =>
      .of_children
        (given.literalsIn.mono (List.subset_append_right [_, _] _)) nofun
  | .operand reads _ | .test reads _ | .value reads _ _ => reads.literalsIn
  | .operation before _ reads _ => by
      have subset := ((List.suffix_cons ..).trans before.rest_suffix).subset
      have right := reads.literalsIn.mono subset
      exact .of_children (.cons before.literalsIn (.cons right .nil)) nofun
  | .branches before _ readsTrue _ readsFalse => by
      have subset := ((List.suffix_cons ..).trans before.rest_suffix).subset
      have subsetFalse :=
        ((List.suffix_cons ..).trans readsTrue.rest_suffix).subset
      have onTrue := readsTrue.literalsIn.mono subset
      have onFalse := (readsFalse.literalsIn.mono subsetFalse).mono subset
      exact .of_children
        (.cons before.literalsIn (.cons onTrue (.cons onFalse .nil))) nofun
  | .store readsTarget _ readsValue => by
      have subset :=
        ((List.suffix_cons ..).trans readsTarget.rest_suffix).subset
      have value := readsValue.literalsIn.mono subset
      exact .of_children (.cons readsTarget.literalsIn (.cons value .nil)) nofun

theorem ReadsArguments.literalsIn {tokens rest : List Token}
    {arguments : List Expr} {entries : Nat} :
    ReadsArguments tokens arguments rest entries →
      LiteralsIn tokens (Expr.nodesOfAll arguments)
  | .one reads => .cons reads.literalsIn .nil
  | .more readsBefore _ reads => by
      have subset :=
        ((List.suffix_cons ..).trans readsBefore.rest_suffix).subset
      intro value place isNode
      obtain ⟨argument, given, isNode⟩ := Expr.mem_nodesOfAll.mp isNode
      rcases List.mem_append.mp given with earlier | last
      · exact readsBefore.literalsIn value place
          (Expr.mem_nodesOfAll.mpr ⟨argument, earlier, isNode⟩)
      · rw [List.mem_singleton.mp last] at isNode
        exact (reads.literalsIn.mono subset) value place isNode

end

end Grammar
end Calculator
