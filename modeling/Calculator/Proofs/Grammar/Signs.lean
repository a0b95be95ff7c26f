import Calculator.Proofs.Expr.Pieces

/-!
# How texts with signs are read

Infix texts put every operation in parentheses, and so they are read back as
the operations that they were written from.  Only the sign of a number is read
as a subtraction from zero, and it takes the whole product that the number
begins: `(-7 / x)` is read as `0 - (7 / x)`.
-/

namespace Calculator

namespace Operator

/-- The operators that a sign in front of their left operand goes beyond. -/
def isProduct : Operator → Bool
  | .times | .divide | .modulo => true
  | _ => false

theorem ofProduct?_kind {operator : Operator}
    (product : operator.isProduct = true) :
    ofProduct? operator.kind = some operator := by
  cases operator <;> first | rfl | cases product

theorem ofProduct?_kind_eq_none {operator : Operator}
    (other : operator.isProduct = false) :
    ofProduct? operator.kind = none := by
  cases operator <;> first | rfl | cases other

end Operator

namespace Decimal

/-- A negative number has a sign and the digits of its opposite. -/
theorem pieces_of_neg {value : Int64} (negative : value < 0) :
    pieces value = [(.minus, "-"),
      (.number, String.ofList (digits value.toInt.natAbs))] := by
  simp only [pieces, negative, if_true]

end Decimal

namespace Expr

/-- A number that is written with a sign. -/
def isSigned : Expr → Bool
  | .literal value _ => value < 0
  | _ => false

theorem exists_of_isSigned {expression : Expr}
    (signed : expression.isSigned = true) :
    ∃ value span, expression = .literal value span ∧ value < 0 := by
  cases expression with
  | literal value span => exact ⟨value, span, rfl, of_decide_eq_true signed⟩
  | _ => cases signed

/-- Only the text of a number with a sign does not begin with an operand. -/
theorem beginsOperand_pieces (expression : Expr) :
    ∀ piece ∈ expression.pieces.head?,
      piece.1.beginsOperand = !expression.isSigned := by
  intro piece isFirst
  cases expression with
  | literal value span =>
      by_cases negative : value < 0
      · rw [pieces, Decimal.pieces_of_neg negative] at isFirst
        cases isFirst
        simp [isSigned, negative, TokenKind.beginsOperand]
      · rw [pieces, Decimal.pieces_of_nonneg (Int64.not_lt.mp negative)]
          at isFirst
        cases isFirst
        simp [isSigned, negative, TokenKind.beginsOperand]
  | _ =>
      cases isFirst
      rfl

/-- The opposite of a number. -/
def opposite : Expr → Expr
  | .literal value span => .literal (-value) span
  | other => other

/-- What a minus in front of an operand stands for. -/
def negation (operand : Expr) : Expr :=
  .binary .minus (.literal 0 .unknown) operand

mutual

/-- The tree that the infix text of a tree is read as. -/
def reread : Expr → Expr
  | .literal value span =>
      if value < 0 then negation (.literal (-value) span)
      else .literal value span
  | .var name => .var name
  | .binary operator left right =>
      if operator.isProduct && left.isSigned then
        negation (.binary operator left.opposite right.reread)
      else .binary operator left.reread right.reread
  | .assign target value => .assign target value.reread
  | .conditional test onTrue onFalse =>
      .conditional test.reread onTrue.reread onFalse.reread
  | .call callee arguments close => .call callee (rereadAll arguments) close

/-- The trees that the infix texts of trees are read as. -/
def rereadAll : List Expr → List Expr
  | [] => []
  | first :: rest => first.reread :: rereadAll rest

end

mutual

/-- How deep the grammar is entered when it reads the infix text of a tree. -/
def rereadDepth : Expr → Nat
  | .literal value _ => if value < 0 then 3 else 2
  | .var _ => 2
  | .binary operator left right =>
      if operator.isProduct && left.isSigned then 3 + max 2 right.rereadDepth
      else 2 + max left.rereadDepth right.rereadDepth
  | .assign _ value => 3 + value.rereadDepth
  | .conditional test onTrue onFalse =>
      max (2 + test.rereadDepth)
        (max (3 + onTrue.rereadDepth) (3 + onFalse.rereadDepth))
  | .call _ arguments _ => 2 + greatestRereadDepth arguments

/-- The depth of the deepest of some trees. -/
def greatestRereadDepth : List Expr → Nat
  | [] => 0
  | first :: rest => max first.rereadDepth (greatestRereadDepth rest)

end

theorem length_rereadAll (expressions : List Expr) :
    (rereadAll expressions).length = expressions.length := by
  induction expressions with
  | nil => rfl
  | cons first rest induction =>
      rw [rereadAll, List.length_cons, induction, List.length_cons]

@[simp] theorem permitted_negation (operand : Expr) :
    (negation operand).Permitted ↔ operand.Permitted := by
  simp [negation]

mutual

/-- What is read assigns to variables and calls with few arguments if the tree
does so. -/
theorem Permitted.reread : {expression : Expr} → expression.Permitted →
    expression.reread.Permitted
  | .literal value span, _ => by
      unfold Expr.reread
      split <;> simp
  | .var _, permitted => permitted
  | .binary operator left right, permitted => by
      obtain ⟨leftPermitted, rightPermitted⟩ :=
        (permitted_binary ..).mp permitted
      unfold Expr.reread
      split
      · next signed =>
        obtain ⟨value, span, rfl, -⟩ :=
          exists_of_isSigned (Bool.and_eq_true_iff.mp signed).2
        rw [permitted_negation, permitted_binary]
        exact ⟨permitted_literal .., rightPermitted.reread⟩
      · exact (permitted_binary ..).mpr
          ⟨leftPermitted.reread, rightPermitted.reread⟩
  | .assign target value, permitted => by
      obtain ⟨isVariable, valuePermitted⟩ := (permitted_assign ..).mp permitted
      exact (permitted_assign ..).mpr ⟨isVariable, valuePermitted.reread⟩
  | .conditional test onTrue onFalse, permitted => by
      obtain ⟨testPermitted, truePermitted, falsePermitted⟩ :=
        (permitted_conditional ..).mp permitted
      exact (permitted_conditional ..).mpr ⟨testPermitted.reread,
        truePermitted.reread, falsePermitted.reread⟩
  | .call callee arguments close, permitted => by
      obtain ⟨few, given⟩ := (permitted_call ..).mp permitted
      refine (permitted_call ..).mpr ⟨?_, permitted_rereadAll arguments given⟩
      rw [length_rereadAll]
      exact few

theorem permitted_rereadAll : (expressions : List Expr) →
    (∀ expression ∈ expressions, expression.Permitted) →
      ∀ expression ∈ rereadAll expressions, expression.Permitted
  | [], _ => List.forall_mem_nil _
  | first :: rest, permitted => by
      obtain ⟨firstPermitted, restPermitted⟩ :=
        List.forall_mem_cons.mp permitted
      exact List.forall_mem_cons.mpr
        ⟨firstPermitted.reread, permitted_rereadAll rest restPermitted⟩

end

theorem height_negation (operand : Expr) :
    (negation operand).height = operand.height + 1 := by
  have positive := operand.height_pos
  simp only [negation, height]
  omega

mutual

/-- What is read cannot be taller than its text is nested. -/
theorem height_reread_le : (expression : Expr) → expression.Permitted →
    expression.reread.height ≤ expression.rereadDepth
  | .literal value span, _ => by
      unfold reread rereadDepth
      split <;> simp [height_negation, height]
  | .var _, _ => Nat.le_succ 1
  | .binary operator left right, permitted => by
      obtain ⟨leftPermitted, rightPermitted⟩ :=
        (permitted_binary ..).mp permitted
      have left_le := height_reread_le left leftPermitted
      have right_le := height_reread_le right rightPermitted
      unfold reread rereadDepth
      split
      · next signed =>
        obtain ⟨value, span, rfl, -⟩ :=
          exists_of_isSigned (Bool.and_eq_true_iff.mp signed).2
        simp only [height_negation, height, opposite]
        omega
      · simp only [height]
        omega
  | .assign target value, permitted => by
      obtain ⟨⟨name, rfl⟩, valuePermitted⟩ := (permitted_assign ..).mp permitted
      have value_le := height_reread_le value valuePermitted
      simp only [reread, height, rereadDepth]
      omega
  | .conditional test onTrue onFalse, permitted => by
      obtain ⟨testPermitted, truePermitted, falsePermitted⟩ :=
        (permitted_conditional ..).mp permitted
      have test_le := height_reread_le test testPermitted
      have true_le := height_reread_le onTrue truePermitted
      have false_le := height_reread_le onFalse falsePermitted
      simp only [reread, height, rereadDepth]
      omega
  | .call _ arguments _, permitted => by
      have given := ((permitted_call ..).mp permitted).2
      have given_le := greatestHeight_rereadAll_le arguments given
      simp only [reread, height, rereadDepth]
      omega

theorem greatestHeight_rereadAll_le : (expressions : List Expr) →
    (∀ expression ∈ expressions, expression.Permitted) →
      greatestHeight (rereadAll expressions) ≤ greatestRereadDepth expressions
  | [], _ => Nat.le_refl _
  | first :: rest, permitted => by
      obtain ⟨firstPermitted, restPermitted⟩ :=
        List.forall_mem_cons.mp permitted
      have first_le := height_reread_le first firstPermitted
      have rest_le := greatestHeight_rereadAll_le rest restPermitted
      simp only [rereadAll, greatestHeight, greatestRereadDepth]
      omega

end

end Expr

namespace Grammar

/-! ### From factors to looser phrases -/

theorem exists_mem_operators (operator : Operator) :
    ∃ level : Level, (operator.kind, operator) ∈ level.operators := by
  cases operator with
  | plus | minus => exact ⟨.sum, by decide⟩
  | times | divide | modulo => exact ⟨.product, by decide⟩
  | _ => exact ⟨.comparison, by decide⟩

/-- An operator belongs to one level only. -/
theorem operator?_eq_none {level other : Level} {kind : TokenKind}
    {operator : Operator} (isOperator : (kind, operator) ∈ level.operators)
    (different : other ≠ level) : other.operator? kind = none := by
  have found := Level.operator?_eq_some_iff.mpr isOperator
  cases level <;> cases other
  case product.product | sum.sum | comparison.comparison =>
    exact absurd rfl different
  all_goals cases kind <;> first | rfl | cases found

variable {tokens rest : List Token} {expression : Expr} {entries : Nat}

/-- A factor is an operand of a level if no other level goes on after it. -/
theorem Reads.operand_of_factor
    (reads : Reads .factor tokens expression rest entries) (level : Level)
    (ends : ∀ other, other ≠ level → (Category.chain other).Ends rest) :
    Reads level.operand tokens expression rest entries ∧
      level.operand.Ends rest := by
  cases level with
  | product => exact ⟨reads, trivial⟩
  | sum => exact ⟨.operand reads trivial, ends .product nofun⟩
  | comparison =>
      have product : Reads (.chain .product) tokens expression rest entries :=
        .operand reads trivial
      exact ⟨.operand product (ends .product nofun), ends .sum nofun⟩

/-- No operation goes on with these tokens. -/
def EndsChains (rest : List Token) : Prop :=
  ∀ level, (Category.chain level).Ends rest

theorem endsChains_cons {token : Token}
    (noOperator : ∀ level : Level, level.operator? token.kind = none) :
    EndsChains (token :: rest) :=
  fun level => Level.ends_cons.mpr (noOperator level)

theorem Reads.conditional_of_chain {level : Level}
    (reads : Reads (.chain level) tokens expression rest entries)
    (ends : EndsChains rest) :
    Reads .conditional tokens expression rest entries := by
  have comparison :
      Reads (.chain .comparison) tokens expression rest entries := by
    cases level with
    | product =>
        have sum : Reads (.chain .sum) tokens expression rest entries :=
          .operand reads (ends .product)
        exact .operand sum (ends .sum)
    | sum => exact .operand reads (ends .sum)
    | comparison => exact reads
  exact .test comparison (ends .comparison)

theorem Reads.conditional_of_factor
    (reads : Reads .factor tokens expression rest entries)
    (ends : EndsChains rest) :
    Reads .conditional tokens expression rest entries := by
  have product : Reads (.chain .product) tokens expression rest entries :=
    .operand reads trivial
  exact product.conditional_of_chain ends

/-- No phrase goes on with these tokens. -/
structure EndsPhrases (rest : List Token) : Prop where
  chains : EndsChains rest
  conditional : Category.conditional.Ends rest
  noSign : nextKind? rest ≠ some .equal
  noCall : nextKind? rest ≠ some .leftParenthesis

theorem endsPhrases_nil : EndsPhrases [] where
  chains level := level.ends_nil
  conditional := nofun
  noSign := nofun
  noCall := nofun

/-- What closes or separates phrases goes on with none. -/
theorem endsPhrases_cons {token : Token}
    (kind : token.kind = .rightParenthesis ∨ token.kind = .comma ∨
      token.kind = .colon) : EndsPhrases (token :: rest) := by
  rcases kind with kind | kind | kind
  all_goals
    refine ⟨endsChains_cons fun level => ?_, ?_, ?_, ?_⟩
    · rw [kind]
      cases level <;> rfl
    · simp [Category.Ends, kind]
    · simp [kind]
    · simp [kind]

theorem Reads.assign_of_conditional
    (reads : Reads .conditional tokens expression rest entries)
    (ends : EndsPhrases rest) :
    Reads .assign tokens expression rest (entries + 1) :=
  .value reads ends.conditional ends.noSign

theorem Reads.assign_of_factor
    (reads : Reads .factor tokens expression rest entries)
    (ends : EndsPhrases rest) :
    Reads .assign tokens expression rest (entries + 1) :=
  (reads.conditional_of_factor ends.chains).assign_of_conditional ends

/-! ### Trees from their tokens -/

/-- The tokens are read as the tree at the given depth wherever they stand,
unless the token behind them makes a call of a name or goes on with the product
that a sign takes. -/
def ReadsAs (tokens : List Token) (expression : Expr) (depth : Nat)
    (signed : Bool) : Prop :=
  ∃ read entries, read.eraseSpans = expression.eraseSpans ∧
    entries + 1 = depth ∧
    ∀ rest, nextKind? rest ≠ some .leftParenthesis →
      (signed = true → (Category.chain .product).Ends rest) →
        Reads .factor (tokens ++ rest) read rest entries

/-- Where phrases end, the tokens are a phrase of the loosest level. -/
theorem ReadsAs.exists_assign {depth : Nat} {signed : Bool}
    (readsAs : ReadsAs tokens expression depth signed) :
    ∃ read, read.eraseSpans = expression.eraseSpans ∧
      ∀ rest, EndsPhrases rest →
        Reads .assign (tokens ++ rest) read rest depth := by
  obtain ⟨read, entries, read_eq, rfl, reads⟩ := readsAs
  refine ⟨read, read_eq, fun rest ends => ?_⟩
  exact (reads rest ends.noCall fun _ => ends.chains .product).assign_of_factor
    ends

theorem ReadsAs.number {value : Int64} {token : Token} (span : Span)
    (isNumber : token.kind = .number) (value_eq : token.numeral = value) :
    ReadsAs [token] (.literal value span) 2 false := by
  refine ⟨.literal token.numeral token.span, 1, ?_, rfl, fun rest _ _ => ?_⟩
  · rw [value_eq]
    rfl
  · exact .number isNumber

/-- A sign takes a number, unless the number begins a product. -/
theorem ReadsAs.signedNumber {value : Int64} {minus token : Token}
    (span : Span) (isMinus : minus.kind = .minus)
    (isNumber : token.kind = .number) (value_eq : token.numeral = value) :
    ReadsAs [minus, token] (.negation (.literal value span)) 3 true := by
  refine ⟨.binary .minus (.literal 0 minus.span)
    (.literal token.numeral token.span), 2, ?_, rfl, fun rest _ ends => ?_⟩
  · rw [value_eq]
    rfl
  · have product : Reads (.chain .product) (token :: rest)
        (.literal token.numeral token.span) rest 1 :=
      .operand (.number isNumber) trivial
    exact .negation isMinus product (ends rfl)

theorem ReadsAs.variable {name : Name} {token : Token} (isName : IsName token)
    (lexeme_eq : token.lexeme = name.text) :
    ReadsAs [token] (.var name) 2 false := by
  refine ⟨.var token.asName, 1, ?_, rfl, fun rest noCall _ => ?_⟩
  · simp only [Expr.eraseSpans, Token.asName, lexeme_eq]
  · exact .name isName noCall

/-- What is read as a whole may be put in parentheses. -/
theorem ReadsAs.parentheses {opening closing : Token} (read : Expr)
    (entries : Nat) {depth : Nat}
    (read_eq : read.eraseSpans = expression.eraseSpans)
    (entries_eq : entries + 2 = depth)
    (opens : opening.kind = .leftParenthesis)
    (closes : closing.kind = .rightParenthesis)
    (reads : ∀ rest, EndsPhrases (closing :: rest) →
      Reads .assign (tokens ++ closing :: rest) read (closing :: rest)
        entries) :
    ReadsAs (opening :: (tokens ++ [closing])) expression depth false := by
  refine ⟨read, entries + 1, read_eq, entries_eq, fun rest _ _ => ?_⟩
  have readsAll := reads rest (endsPhrases_cons (.inl closes))
  rw [List.cons_append, List.append_assoc]
  exact .parentheses opens readsAll closes

section Operations

variable {opening closing : Token} (opens : opening.kind = .leftParenthesis)
  (closes : closing.kind = .rightParenthesis)
include opens closes

/-- An operation keeps its operands apart, unless the left one has a sign that
takes the operation as well. -/
theorem ReadsAs.binary {operator : Operator} {left right : Expr} {sign : Token}
    {leftTokens rightTokens : List Token} {leftDepth rightDepth : Nat}
    {leftSigned rightSigned : Bool}
    (readLeft : ReadsAs leftTokens left leftDepth leftSigned)
    (isSign : sign.kind = operator.kind)
    (apart : leftSigned = true → operator.isProduct = false)
    (readRight : ReadsAs rightTokens right rightDepth rightSigned) :
    ReadsAs (opening :: ((leftTokens ++ sign :: rightTokens) ++ [closing]))
      (.binary operator left right) (2 + max leftDepth rightDepth) false := by
  obtain ⟨leftRead, leftEntries, left_eq, rfl, readsLeft⟩ := readLeft
  obtain ⟨rightRead, rightEntries, right_eq, rfl, readsRight⟩ := readRight
  obtain ⟨level, isOperator⟩ := exists_mem_operators operator
  rw [← isSign] at isOperator
  have noCall : sign.kind ≠ .leftParenthesis := by
    rw [isSign]
    cases operator <;> nofun
  have noProduct : leftSigned = true →
      Level.product.operator? sign.kind = none := fun isSigned => by
    rw [isSign]
    exact Operator.ofProduct?_kind_eq_none (apart isSigned)
  refine parentheses (.binary operator leftRead rightRead)
    (max leftEntries rightEntries + 1) ?_ (by omega) opens closes
      fun rest ends => ?_
  · simp only [Expr.eraseSpans, left_eq, right_eq]
  · obtain ⟨readsLeft, leftEnds⟩ := (readsLeft
      (sign :: (rightTokens ++ closing :: rest)) (by simpa using noCall)
      fun isSigned => Level.ends_cons.mpr (noProduct isSigned)
      ).operand_of_factor level fun _ different =>
        Level.ends_cons.mpr (operator?_eq_none isOperator different)
    obtain ⟨readsRight, rightEnds⟩ := (readsRight (closing :: rest)
      ends.noCall fun _ => ends.chains .product).operand_of_factor level
        fun other _ => ends.chains other
    have whole := Reads.operation (.operand readsLeft leftEnds) isOperator
      readsRight rightEnds
    rw [List.append_assoc, List.cons_append]
    exact (whole.conditional_of_chain ends.chains).assign_of_conditional ends

/-- A sign in front of a product takes the product. -/
theorem ReadsAs.signedProduct {operator : Operator} {value : Int64}
    {right : Expr} {minus token sign : Token} {rightTokens : List Token}
    {rightDepth : Nat} {rightSigned : Bool} (span : Span)
    (isMinus : minus.kind = .minus) (isNumber : token.kind = .number)
    (value_eq : token.numeral = value) (isSign : sign.kind = operator.kind)
    (product : operator.isProduct = true)
    (readRight : ReadsAs rightTokens right rightDepth rightSigned) :
    ReadsAs
      (opening :: (([minus, token] ++ sign :: rightTokens) ++ [closing]))
      (.negation (.binary operator (.literal value span) right))
      (3 + max 2 rightDepth) false := by
  obtain ⟨rightRead, rightEntries, right_eq, rfl, readsRight⟩ := readRight
  have isOperator : (sign.kind, operator) ∈ Level.product.operators := by
    rw [isSign]
    exact Level.operator?_eq_some_iff.mp (Operator.ofProduct?_kind product)
  refine parentheses (.binary .minus (.literal 0 minus.span)
      (.binary operator (.literal token.numeral token.span) rightRead))
    (max 1 rightEntries + 2) ?_ (by omega) opens closes fun rest ends => ?_
  · simp only [Expr.eraseSpans, Expr.negation, value_eq, right_eq]
  · have chain : Reads (.chain .product)
        (token :: sign :: (rightTokens ++ closing :: rest)) _ _ _ :=
      .operation (.operand (.number isNumber) trivial) isOperator
        (readsRight (closing :: rest) ends.noCall fun _ => ends.chains .product)
        trivial
    simp only [List.cons_append, List.nil_append]
    exact (Reads.negation isMinus chain (ends.chains .product)).assign_of_factor
      ends

theorem ReadsAs.assign {name : Name} {value : Expr} {target sign : Token}
    {valueTokens : List Token} {depth : Nat} {signed : Bool}
    (isName : IsName target) (lexeme_eq : target.lexeme = name.text)
    (isSign : sign.kind = .equal)
    (readValue : ReadsAs valueTokens value depth signed) :
    ReadsAs (opening :: ((target :: sign :: valueTokens) ++ [closing]))
      (.assign (.var name) value) (3 + depth) false := by
  obtain ⟨valueRead, value_eq, readsValue⟩ := readValue.exists_assign
  refine parentheses (.assign (.var target.asName) valueRead)
    (max 1 depth + 1) ?_ ?_ opens closes fun rest ends => ?_
  · simp only [Expr.eraseSpans, Token.asName, lexeme_eq, value_eq]
  · obtain ⟨-, entries, -, rfl, -⟩ := readValue
    omega
  · have chains : EndsChains (sign :: (valueTokens ++ closing :: rest)) :=
      endsChains_cons fun level => by rw [isSign]; cases level <;> rfl
    have noCall : nextKind? (sign :: (valueTokens ++ closing :: rest)) ≠
        some .leftParenthesis := by
      simp [isSign]
    have readsTarget :=
      (Reads.name isName noCall).conditional_of_factor chains
    exact .store readsTarget isSign (readsValue (closing :: rest) ends)

theorem ReadsAs.conditional {test onTrue onFalse : Expr}
    {testTokens trueTokens falseTokens : List Token} {question colon : Token}
    {testDepth trueDepth falseDepth : Nat}
    {testSigned trueSigned falseSigned : Bool}
    (readTest : ReadsAs testTokens test testDepth testSigned)
    (asks : question.kind = .question)
    (readTrue : ReadsAs trueTokens onTrue trueDepth trueSigned)
    (separates : colon.kind = .colon)
    (readFalse : ReadsAs falseTokens onFalse falseDepth falseSigned) :
    ReadsAs
      (opening :: ((testTokens ++ question ::
        (trueTokens ++ colon :: falseTokens)) ++ [closing]))
      (.conditional test onTrue onFalse)
      (max (2 + testDepth) (max (3 + trueDepth) (3 + falseDepth))) false := by
  obtain ⟨testRead, testEntries, test_eq, rfl, readsTest⟩ := readTest
  obtain ⟨trueRead, true_eq, readsTrue⟩ := readTrue.exists_assign
  obtain ⟨falseRead, false_eq, readsFalse⟩ := readFalse.exists_assign
  refine parentheses (.conditional testRead trueRead falseRead)
    (max (max testEntries trueDepth) falseDepth + 1) ?_ (by omega) opens closes
      fun rest ends => ?_
  · simp only [Expr.eraseSpans, test_eq, true_eq, false_eq]
  · have chains : ∀ rest, EndsChains (question :: rest) := fun _ =>
      endsChains_cons fun level => by rw [asks]; cases level <;> rfl
    have colonEnds : ∀ rest, EndsPhrases (colon :: rest) := fun _ =>
      endsPhrases_cons (.inr (.inr separates))
    have before := (readsTest (question :: (trueTokens ++ colon ::
      (falseTokens ++ closing :: rest))) (by simp [asks])
        fun _ => chains _ .product).conditional_of_factor (chains _)
    have whole := before.branches asks (readsTrue _ (colonEnds _)) separates
      (readsFalse _ ends)
    simp only [List.append_assoc, List.cons_append]
    exact whole.assign_of_conditional ends

end Operations

/-- The tokens are read as arguments after those in front of them, which they
end. -/
def LaterReadsAs (tokens : List Token) (later : List Expr) (greatest : Nat) :
    Prop :=
  ∃ read, Expr.eraseAllSpans read = Expr.eraseAllSpans later ∧
    ∀ closing rest, closing.kind = .rightParenthesis →
      EndsPhrases (tokens ++ closing :: rest) ∧
        ∀ {start before entries},
          ReadsArguments start before (tokens ++ closing :: rest) entries →
            ReadsArguments start (before ++ read) (closing :: rest)
              (max entries greatest)

theorem LaterReadsAs.nil : LaterReadsAs [] [] 0 := by
  refine ⟨[], rfl, fun closing rest closes => ⟨endsPhrases_cons (.inl closes),
    fun readsBefore => ?_⟩⟩
  rw [List.append_nil, Nat.max_zero]
  exact readsBefore

theorem LaterReadsAs.cons {next : Expr} {later : List Expr} {comma : Token}
    {nextTokens laterTokens : List Token} {depth greatest : Nat} {signed : Bool}
    (separates : comma.kind = .comma)
    (readNext : ReadsAs nextTokens next depth signed)
    (readLater : LaterReadsAs laterTokens later greatest) :
    LaterReadsAs (comma :: (nextTokens ++ laterTokens)) (next :: later)
      (max depth greatest) := by
  obtain ⟨read, read_eq, reads⟩ := readNext.exists_assign
  obtain ⟨others, others_eq, readsOthers⟩ := readLater
  refine ⟨read :: others, ?_, fun closing rest closes =>
    ⟨endsPhrases_cons (.inr (.inl separates)), fun readsBefore => ?_⟩⟩
  · rw [Expr.eraseAllSpans, read_eq, others_eq, Expr.eraseAllSpans]
  · obtain ⟨ends, readsLater⟩ := readsOthers closing rest closes
    rw [List.cons_append, List.append_assoc] at readsBefore
    have readsNext := readsBefore.more separates (reads _ ends)
    rw [List.append_cons, ← Nat.max_assoc]
    exact readsLater readsNext

section Calls

variable {callee : Name} {token opening closing : Token}
  (isName : IsName token) (lexeme_eq : token.lexeme = callee.text)
  (opens : opening.kind = .leftParenthesis)
  (closes : closing.kind = .rightParenthesis)
include isName lexeme_eq opens closes

theorem ReadsAs.emptyCall (close : Span) :
    ReadsAs [token, opening, closing] (.call callee [] close) 2 false := by
  refine ⟨.call token.asName [] closing.span, 1, ?_, rfl, fun rest _ _ => ?_⟩
  · simp only [Expr.eraseSpans, Token.asName, lexeme_eq]
  · exact .emptyCall isName opens closes

theorem ReadsAs.call {first : Expr} {later : List Expr}
    {firstTokens laterTokens : List Token} {depth greatest : Nat}
    {signed : Bool} (close : Span)
    (readFirst : ReadsAs firstTokens first depth signed)
    (readLater : LaterReadsAs laterTokens later greatest) :
    ReadsAs (token :: opening :: ((firstTokens ++ laterTokens) ++ [closing]))
      (.call callee (first :: later) close) (2 + max depth greatest) false := by
  obtain ⟨read, read_eq, reads⟩ := readFirst.exists_assign
  obtain ⟨others, others_eq, readsOthers⟩ := readLater
  refine ⟨.call token.asName (read :: others) closing.span,
    max depth greatest + 1, ?_, by omega, fun rest _ _ => ?_⟩
  · simp only [Expr.eraseSpans, Token.asName, Expr.eraseAllSpans, lexeme_eq,
      read_eq, others_eq]
  · obtain ⟨ends, readsLater⟩ := readsOthers closing rest closes
    have readsFirst := reads _ ends
    simp only [List.append_assoc, List.cons_append]
    exact .call isName opens (readsLater (.one readsFirst)) closes

end Calls

/-! ### Pieces of tokens -/

theorem exists_of_map_eq_append_cons {tokens : List Token}
    {front back : List (TokenKind × String)} {kind : TokenKind}
    {lexeme : String}
    (pieces_eq : tokens.map Token.piece = front ++ (kind, lexeme) :: back) :
    ∃ before token after, tokens = before ++ token :: after ∧
      before.map Token.piece = front ∧ token.kind = kind ∧
      after.map Token.piece = back := by
  obtain ⟨before, others, rfl, before_eq, others_eq⟩ :=
    List.map_eq_append_iff.mp pieces_eq
  obtain ⟨token, after, rfl, token_eq, after_eq⟩ :=
    List.map_eq_cons_iff.mp others_eq
  exact ⟨before, token, after, rfl, before_eq, congrArg Prod.fst token_eq,
    after_eq⟩

theorem exists_of_map_eq_parenthesized {tokens : List Token}
    {inner : List (TokenKind × String)}
    (pieces_eq : tokens.map Token.piece = parenthesized inner) :
    ∃ opening between closing, tokens = opening :: (between ++ [closing]) ∧
      opening.kind = .leftParenthesis ∧ between.map Token.piece = inner ∧
      closing.kind = .rightParenthesis := by
  obtain ⟨opening, others, rfl, opening_eq, others_eq⟩ :=
    List.map_eq_cons_iff.mp pieces_eq
  obtain ⟨between, closing, after, rfl, between_eq, closes, after_eq⟩ :=
    exists_of_map_eq_append_cons others_eq
  obtain rfl := List.map_eq_nil_iff.mp after_eq
  exact ⟨opening, between, closing, rfl, congrArg Prod.fst opening_eq,
    between_eq, closes⟩

/-- A token that spells a proper name is a name. -/
theorem isName_of_piece {token : Token} {name : String}
    (proper : IsProperName name) (piece_eq : token.piece = (.name, name)) :
    IsName token ∧ token.lexeme = name := by
  obtain ⟨kind, lexeme⟩ := Prod.mk.inj piece_eq
  exact ⟨⟨kind, lexeme ▸ proper.notKeyword⟩, lexeme⟩

/-- The tokens of a negative number are a minus and its opposite. -/
theorem exists_of_map_eq_negative {tokens : List Token} {value : Int64}
    (negative : value < 0)
    (pieces_eq : tokens.map Token.piece = Decimal.pieces value) :
    ∃ minus token, tokens = [minus, token] ∧ minus.kind = .minus ∧
      token.kind = .number ∧ token.numeral = -value := by
  rw [Decimal.pieces_of_neg negative] at pieces_eq
  obtain ⟨minus, others, rfl, minus_eq, others_eq⟩ :=
    List.map_eq_cons_iff.mp pieces_eq
  obtain ⟨token, rfl, token_eq⟩ := List.map_eq_singleton_iff.mp others_eq
  obtain ⟨isNumber, lexeme_eq⟩ := Prod.mk.inj token_eq
  refine ⟨minus, token, rfl, congrArg Prod.fst minus_eq, isNumber, ?_⟩
  rw [← Token.value_eq_numeral, Token.value, lexeme_eq, String.toList_ofList,
    Decimal.value_digits, Decimal.ofNat_natAbs negative]

mutual

/-- Tokens with the pieces of a tree are read with the signs where the grammar
takes them. -/
theorem readsAs_of_pieces : (expression : Expr) → expression.IsProper →
    ∀ {tokens}, tokens.map Token.piece = expression.pieces →
      ReadsAs tokens expression.reread expression.rereadDepth
        expression.isSigned
  | .literal value span, _, tokens, pieces_eq => by
      rw [Expr.pieces] at pieces_eq
      by_cases negative : value < 0
      · obtain ⟨minus, token, rfl, isMinus, isNumber, value_eq⟩ :=
          exists_of_map_eq_negative negative pieces_eq
        simp only [Expr.reread, Expr.rereadDepth, Expr.isSigned, negative,
          if_true, decide_true]
        exact .signedNumber span isMinus isNumber value_eq
      · rw [Decimal.pieces_of_nonneg (Int64.not_lt.mp negative)] at pieces_eq
        obtain ⟨token, rfl, piece_eq⟩ := List.map_eq_singleton_iff.mp pieces_eq
        obtain ⟨isNumber, lexeme_eq⟩ := Prod.mk.inj piece_eq
        have value_eq := Token.numeral_of_lexeme lexeme_eq
        simp only [Expr.reread, Expr.rereadDepth, Expr.isSigned, negative,
          if_false, decide_false]
        exact .number span isNumber value_eq
  | .var name, proper, tokens, pieces_eq => by
      obtain ⟨token, rfl, piece_eq⟩ := List.map_eq_singleton_iff.mp pieces_eq
      obtain ⟨isName, lexeme_eq⟩ :=
        isName_of_piece (proper.names name.text (by simp)) piece_eq
      exact .variable isName lexeme_eq
  | .binary operator left right, proper, tokens, pieces_eq => by
      obtain ⟨opening, between, closing, rfl, opens, between_eq, closes⟩ :=
        exists_of_map_eq_parenthesized pieces_eq
      obtain ⟨leftTokens, sign, rightTokens, rfl, left_eq, isSign, right_eq⟩ :=
        exists_of_map_eq_append_cons between_eq
      have readRight := readsAs_of_pieces right
        (proper.part (by simp [Expr.nodes])) right_eq
      unfold Expr.reread Expr.rereadDepth
      split
      · -- The sign of the left operand takes the operation along.
        next taken =>
        obtain ⟨product, signed⟩ := Bool.and_eq_true_iff.mp taken
        obtain ⟨value, span, rfl, negative⟩ := Expr.exists_of_isSigned signed
        obtain ⟨minus, token, rfl, isMinus, isNumber, value_eq⟩ :=
          exists_of_map_eq_negative negative left_eq
        exact .signedProduct opens closes span isMinus isNumber value_eq isSign
          product readRight
      · next apart =>
        have readLeft := readsAs_of_pieces left
          (proper.part (by simp [Expr.nodes])) left_eq
        refine .binary opens closes readLeft isSign (fun signed => ?_) readRight
        simpa only [signed, Bool.and_true, Bool.not_eq_true] using apart
  | .assign target value, proper, tokens, pieces_eq => by
      obtain ⟨opening, between, closing, rfl, opens, between_eq, closes⟩ :=
        exists_of_map_eq_parenthesized pieces_eq
      obtain ⟨targetTokens, sign, valueTokens, rfl, target_eq, isSign,
        value_eq⟩ := exists_of_map_eq_append_cons between_eq
      obtain ⟨⟨name, rfl⟩, -⟩ :=
        (Expr.permitted_assign ..).mp proper.permitted
      obtain ⟨token, rfl, piece_eq⟩ := List.map_eq_singleton_iff.mp target_eq
      obtain ⟨isName, lexeme_eq⟩ :=
        isName_of_piece (proper.names name.text (by simp)) piece_eq
      have readValue := readsAs_of_pieces value
        (proper.part (by simp [Expr.nodes])) value_eq
      exact .assign opens closes isName lexeme_eq isSign readValue
  | .conditional test onTrue onFalse, proper, tokens, pieces_eq => by
      obtain ⟨opening, between, closing, rfl, opens, between_eq, closes⟩ :=
        exists_of_map_eq_parenthesized pieces_eq
      obtain ⟨testTokens, question, branches, rfl, test_eq, asks,
        branches_eq⟩ := exists_of_map_eq_append_cons between_eq
      obtain ⟨trueTokens, colon, falseTokens, rfl, true_eq, separates,
        false_eq⟩ := exists_of_map_eq_append_cons branches_eq
      have readTest := readsAs_of_pieces test
        (proper.part (by simp [Expr.nodes])) test_eq
      have readTrue := readsAs_of_pieces onTrue
        (proper.part (by simp [Expr.nodes])) true_eq
      have readFalse := readsAs_of_pieces onFalse
        (proper.part (by simp [Expr.nodes])) false_eq
      exact .conditional opens closes readTest asks readTrue separates readFalse
  | .call callee arguments close, proper, tokens, pieces_eq => by
      obtain ⟨token, others, rfl, piece_eq, others_eq⟩ :=
        List.map_eq_cons_iff.mp pieces_eq
      obtain ⟨opening, between, closing, rfl, opens, between_eq, closes⟩ :=
        exists_of_map_eq_parenthesized others_eq
      obtain ⟨isName, lexeme_eq⟩ :=
        isName_of_piece (proper.names callee.text (by simp)) piece_eq
      have given : ∀ argument ∈ arguments, argument.IsProper :=
        fun _ among => proper.part (Expr.mem_nodes_of_mem_arguments among)
      cases arguments with
      | nil =>
          obtain rfl := List.map_eq_nil_iff.mp between_eq
          exact .emptyCall isName lexeme_eq opens closes close
      | cons first later =>
          obtain ⟨firstProper, laterProper⟩ := List.forall_mem_cons.mp given
          obtain ⟨firstTokens, laterTokens, rfl, first_eq, later_eq⟩ :=
            List.map_eq_append_iff.mp between_eq
          exact .call isName lexeme_eq opens closes close
            (readsAs_of_pieces first firstProper first_eq)
            (laterReadsAs_of_pieces later laterProper later_eq)

theorem laterReadsAs_of_pieces : (later : List Expr) →
    (∀ argument ∈ later, argument.IsProper) →
      ∀ {tokens}, tokens.map Token.piece = Expr.laterPieces later →
        LaterReadsAs tokens (Expr.rereadAll later)
          (Expr.greatestRereadDepth later)
  | [], _, tokens, pieces_eq => by
      obtain rfl := List.map_eq_nil_iff.mp pieces_eq
      exact .nil
  | next :: later, proper, tokens, pieces_eq => by
      obtain ⟨nextProper, laterProper⟩ := List.forall_mem_cons.mp proper
      obtain ⟨comma, others, rfl, comma_eq, others_eq⟩ :=
        List.map_eq_cons_iff.mp pieces_eq
      obtain ⟨nextTokens, laterTokens, rfl, next_eq, later_eq⟩ :=
        List.map_eq_append_iff.mp others_eq
      exact .cons (congrArg Prod.fst comma_eq)
        (readsAs_of_pieces next nextProper next_eq)
        (laterReadsAs_of_pieces later laterProper later_eq)

end

/-- Tokens with the pieces of a tree make a request unless they are nested too
deeply. -/
theorem settles_parse_of_pieces {expression : Expr} {tokens : List Token}
    (proper : expression.IsProper)
    (pieces_eq : tokens.map Token.piece = expression.pieces) :
    ∃ read, read.eraseSpans = expression.reread.eraseSpans ∧
      Settles (expression.rereadDepth ≤ maximumNesting) (Statement.parse tokens)
        (.ok (.expression read)) := by
  obtain ⟨read, read_eq, reads⟩ :=
    (readsAs_of_pieces expression proper pieces_eq).exists_assign
  have readsAll := reads [] endsPhrases_nil
  rw [List.append_nil] at readsAll
  have permitted : read.Permitted := by
    rw [← Expr.permitted_eraseSpans, read_eq, Expr.permitted_eraseSpans]
    exact proper.permitted.reread
  -- The tree cannot be too tall unless its text is nested too deeply.
  have height_le : read.height ≤ expression.rereadDepth := by
    rw [← Expr.height_eraseSpans, read_eq, Expr.height_eraseSpans]
    exact expression.height_reread_le proper.permitted
  have nesting_le : maximumNesting ≤ maximumHeight := by decide
  have fits_eq : Fits maximumNesting expression.rereadDepth read =
      (expression.rereadDepth ≤ maximumNesting) :=
    propext ⟨And.left, fun depth_le => ⟨depth_le, by omega⟩⟩
  exact ⟨read, read_eq, (settles_parse readsAll permitted).congr fits_eq⟩

end Grammar
end Calculator
