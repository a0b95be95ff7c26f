import Calculator.Proofs.Grammar.Signs

/-!
# Reading infix texts back

Infix texts put every operation in parentheses, so that they are read back as
the trees that they were written from.  The parentheses count towards the room
for nesting, however, and a text that needs more room is refused.
-/

namespace Calculator
namespace Expr

mutual

/-- How deep the grammar is entered when it reads the infix text of a tree. -/
def infixDepth : Expr → Nat
  | .literal .. | .var _ => 2
  | .binary _ left right => 2 + max left.infixDepth right.infixDepth
  | .assign _ value => 3 + value.infixDepth
  | .conditional test onTrue onFalse =>
      max (2 + test.infixDepth)
        (max (3 + onTrue.infixDepth) (3 + onFalse.infixDepth))
  | .call _ arguments _ => 2 + greatestInfixDepth arguments

/-- The depth of the deepest of some trees. -/
def greatestInfixDepth : List Expr → Nat
  | [] => 0
  | first :: rest => max first.infixDepth (greatestInfixDepth rest)

end

mutual

theorem height_le_infixDepth : (expression : Expr) → expression.Permitted →
    expression.height ≤ expression.infixDepth
  | .literal .., _ | .var _, _ => Nat.le_succ 1
  | .binary _ left right, permitted => by
      obtain ⟨leftPermitted, rightPermitted⟩ :=
        (permitted_binary ..).mp permitted
      have left_le := height_le_infixDepth left leftPermitted
      have right_le := height_le_infixDepth right rightPermitted
      simp only [height, infixDepth]
      omega
  | .assign target value, permitted => by
      obtain ⟨⟨name, rfl⟩, valuePermitted⟩ := (permitted_assign ..).mp permitted
      have value_le := height_le_infixDepth value valuePermitted
      simp only [height, infixDepth]
      omega
  | .conditional test onTrue onFalse, permitted => by
      obtain ⟨testPermitted, truePermitted, falsePermitted⟩ :=
        (permitted_conditional ..).mp permitted
      have test_le := height_le_infixDepth test testPermitted
      have true_le := height_le_infixDepth onTrue truePermitted
      have false_le := height_le_infixDepth onFalse falsePermitted
      simp only [height, infixDepth]
      omega
  | .call _ arguments _, permitted => by
      have given := ((permitted_call ..).mp permitted).2
      have given_le := greatestHeight_le_infixDepth arguments given
      simp only [height, infixDepth]
      omega

theorem greatestHeight_le_infixDepth : (expressions : List Expr) →
    (∀ expression ∈ expressions, expression.Permitted) →
      greatestHeight expressions ≤ greatestInfixDepth expressions
  | [], _ => Nat.le_refl _
  | first :: rest, permitted => by
      obtain ⟨firstPermitted, restPermitted⟩ :=
        List.forall_mem_cons.mp permitted
      have first_le := height_le_infixDepth first firstPermitted
      have rest_le := greatestHeight_le_infixDepth rest restPermitted
      simp only [greatestHeight, greatestInfixDepth]
      omega

end

/-- A tree such as one can write it, since no number has a sign. -/
structure Writable (expression : Expr) : Prop extends expression.IsProper where
  literals : ∀ value span, .literal value span ∈ expression.nodes → 0 ≤ value

theorem Writable.part {whole part : Expr} (writable : whole.Writable)
    (isPart : part ∈ whole.nodes) : part.Writable where
  toIsProper := writable.toIsProper.part isPart
  literals value span inPart :=
    writable.literals value span (hasParts_nodes whole part isPart inPart)

theorem Writable.isSigned_eq {expression : Expr}
    (writable : expression.Writable) : expression.isSigned = false := by
  cases expression with
  | literal value span =>
      have nonneg := writable.literals value span (by simp)
      exact decide_eq_false (Int64.not_lt.mpr nonneg)
  | _ => rfl

theorem Writable.arguments {callee : Name} {arguments : List Expr}
    {close : Span} (writable : (call callee arguments close).Writable) :
    ∀ argument ∈ arguments, argument.Writable :=
  fun _ among => writable.part (mem_nodes_of_mem_arguments among)

mutual

/-- Without signs, a text is read as the tree that it was written from. -/
theorem Writable.reread_eq : {expression : Expr} → expression.Writable →
    expression.reread = expression ∧
      expression.rereadDepth = expression.infixDepth
  | .literal value span, writable => by
      have notNegative := of_decide_eq_false writable.isSigned_eq
      simp only [reread, rereadDepth, infixDepth, notNegative, if_false,
        and_self]
  | .var _, _ => ⟨rfl, rfl⟩
  | .binary operator left right, writable => by
      have leftWritable : left.Writable := writable.part (by simp [nodes])
      have rightWritable : right.Writable := writable.part (by simp [nodes])
      simp only [reread, rereadDepth, infixDepth, leftWritable.isSigned_eq,
        leftWritable.reread_eq, rightWritable.reread_eq, Bool.and_false,
        Bool.false_eq_true, if_false, and_self]
  | .assign target value, writable => by
      have valueWritable : value.Writable := writable.part (by simp [nodes])
      simp only [reread, rereadDepth, infixDepth, valueWritable.reread_eq,
        and_self]
  | .conditional test onTrue onFalse, writable => by
      have testWritable : test.Writable := writable.part (by simp [nodes])
      have trueWritable : onTrue.Writable := writable.part (by simp [nodes])
      have falseWritable : onFalse.Writable := writable.part (by simp [nodes])
      simp only [reread, rereadDepth, infixDepth, testWritable.reread_eq,
        trueWritable.reread_eq, falseWritable.reread_eq, and_self]
  | .call callee arguments close, writable => by
      simp only [reread, rereadDepth, infixDepth,
        rereadAll_eq arguments writable.arguments, and_self]

theorem rereadAll_eq : (expressions : List Expr) →
    (∀ expression ∈ expressions, expression.Writable) →
      rereadAll expressions = expressions ∧
        greatestRereadDepth expressions = greatestInfixDepth expressions
  | [], _ => ⟨rfl, rfl⟩
  | first :: rest, writable => by
      obtain ⟨firstWritable, restWritable⟩ := List.forall_mem_cons.mp writable
      simp only [rereadAll, greatestRereadDepth, greatestInfixDepth,
        firstWritable.reread_eq, rereadAll_eq rest restWritable, and_self]

end

end Expr

namespace Grammar

/-- The tokens are read as the tree wherever they stand, unless the token behind
them makes a call of a name. -/
def ReadBack (expression : Expr) (tokens : List Token) : Prop :=
  ∃ read entries, read.eraseSpans = expression.eraseSpans ∧
    entries + 1 = expression.infixDepth ∧
    ∀ rest, nextKind? rest ≠ some .leftParenthesis →
      Reads .factor (tokens ++ rest) read rest entries

/-- Tokens with the pieces of a tree are read as this tree. -/
theorem readBack_of_pieces (expression : Expr) (writable : expression.Writable)
    {tokens : List Token}
    (pieces_eq : tokens.map Token.piece = expression.pieces) :
    ReadBack expression tokens := by
  obtain ⟨read, entries, read_eq, entries_eq, reads⟩ :=
    readsAs_of_pieces expression writable.toIsProper pieces_eq
  rw [writable.reread_eq.1] at read_eq
  rw [writable.reread_eq.2] at entries_eq
  refine ⟨read, entries, read_eq, entries_eq, fun rest noCall => ?_⟩
  exact reads rest noCall (by simp [writable.isSigned_eq])

end Grammar

open Grammar

/-- The infix text of a tree that one can write is cut into tokens.  They are
read as the same tree if it is not deeper than the room for nesting, and are
refused as too deep otherwise. -/
theorem Expr.parse_infixText (line : Nat) {expression : Expr}
    (writable : expression.Writable) :
    ∃ sequence, TokenSequence.scan line expression.infixText = .ok sequence ∧
      (expression.infixDepth ≤ maximumNesting →
        ∃ read, sequence.parse = .ok (.expression read) ∧
          read.alike expression = true) ∧
      (maximumNesting < expression.infixDepth →
        ∃ span limit, sequence.parse = .error (.tooDeep span limit)) := by
  have cuts := expression.cuts_infixText
    fun name named => (writable.names name named).identifier
  obtain ⟨tokens, scanned, pieces_eq⟩ := Token.scan_of_cuts cuts line
  obtain ⟨read, entries, read_eq, entries_eq, reads⟩ :=
    readBack_of_pieces expression writable pieces_eq
  have readsAll := (reads [] nofun).assign_of_factor endsPhrases_nil
  rw [List.append_nil, entries_eq] at readsAll
  have permitted : read.Permitted := by
    rw [← permitted_eraseSpans, read_eq, permitted_eraseSpans]
    exact writable.permitted
  -- The tree cannot be too tall unless its text is nested too deeply.
  have height_le : read.height ≤ expression.infixDepth := by
    rw [← height_eraseSpans, read_eq, height_eraseSpans]
    exact height_le_infixDepth expression writable.permitted
  have fits_iff : Fits maximumNesting expression.infixDepth read ↔
      expression.infixDepth ≤ maximumNesting := by
    have nesting_le : maximumNesting ≤ maximumHeight := by decide
    exact ⟨And.left, fun depth_le => ⟨depth_le, by omega⟩⟩
  refine ⟨.ofList tokens, ?_, fun depth_le => ?_, fun tooDeep => ?_⟩
  · rw [TokenSequence.scan, scanned]
    rfl
  · rcases settles_parse readsAll permitted with ⟨-, parsed⟩ | ⟨unfit, -⟩
    · exact ⟨read, parsed, (alike_iff read expression).mpr read_eq⟩
    · exact absurd (fits_iff.mpr depth_le) unfit
  · rcases settles_parse readsAll permitted with ⟨fits, -⟩ | ⟨-, refused⟩
    · exact absurd (fits_iff.mp fits) (Nat.not_le.mpr tooDeep)
    · exact refused

/-- For instance, an assignment that compares the value of a call. -/
theorem Expr.parse_infixText_assignment :
    let expression : Expr := .assign (.var ⟨"x", .unknown⟩)
      (.binary .less
        (.call ⟨"f", .unknown⟩ [.literal 1 .unknown, .var ⟨"y", .unknown⟩]
          .unknown)
        (.literal 2 .unknown))
    expression.infixText = "(x = (f(1,y) < 2))" ∧
      ∃ sequence, TokenSequence.scan 1 "(x = (f(1,y) < 2))" = .ok sequence ∧
        ∃ read, sequence.parse = .ok (.expression read) ∧
          read.alike expression = true := by
  intro expression
  have one : Decimal.text 1 = "1" := by
    rw [Decimal.text, Decimal.digits_of_lt (by decide)]
    rfl
  have two : Decimal.text 2 = "2" := by
    rw [Decimal.text, Decimal.digits_of_lt (by decide)]
    rfl
  have text_eq : expression.infixText = "(x = (f(1,y) < 2))" := by
    simp only [expression, infixText, infixTexts, one, two]
    rfl
  have writable : expression.Writable := by
    refine ⟨⟨by decide, ?_⟩, ?_⟩
    · simp only [expression, permitted_assign, permitted_binary, permitted_call,
        permitted_literal, permitted_var, List.forall_mem_cons]
      refine ⟨⟨_, rfl⟩, ⟨by decide, trivial, trivial, List.forall_mem_nil _⟩,
        trivial⟩
    · intro value span isNode
      simp only [expression, nodes, nodesOfAll, List.cons_append,
        List.nil_append, List.append_nil, List.mem_cons, List.not_mem_nil,
        reduceCtorEq, literal.injEq, false_or, or_false] at isNode
      rcases isNode with ⟨rfl, -⟩ | ⟨rfl, -⟩ <;> decide
  have depth_le : expression.infixDepth ≤ maximumNesting := by decide
  obtain ⟨sequence, scanned, parsed, -⟩ := parse_infixText 1 writable
  rw [text_eq] at scanned
  exact ⟨text_eq, sequence, scanned, parsed depth_le⟩

end Calculator
