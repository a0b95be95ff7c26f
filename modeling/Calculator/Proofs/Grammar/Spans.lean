import Calculator.Proofs.Grammar.Names
import Calculator.Proofs.Token.Tiling

/-!
# The places of trees

The tokens of a text stand in a row on its line.  A phrase takes some tokens off
the front of the row, and the tree that it is read as covers columns of these
tokens only.  Hence the places of a tree nest as the tree does: a part lies
within the whole, and parts that follow each other do so in the text.

Only the outermost parts of a tree decide which columns it covers, and neither
parentheses nor the sign in front of an operand are parts of their own.  The
columns that a phrase takes up are therefore carried along as bounds, within
which the columns of its tree have room.
-/

namespace Calculator

namespace Span

/-- Both spans are on one line, where the first covers columns of the second. -/
def Within (inner outer : Span) : Prop :=
  ∃ line first last outerFirst outerLast, inner = .columns line first last ∧
    outer = .columns line outerFirst outerLast ∧ outerFirst ≤ first ∧
    last ≤ outerLast

/-- Both spans are on one line, where the first ends before the second. -/
def Precedes (earlier later : Span) : Prop :=
  ∃ line first last laterFirst laterLast, earlier = .columns line first last ∧
    later = .columns line laterFirst laterLast ∧ last < laterFirst

variable {line first last first' last' : Nat}

@[simp] theorem columns_inj {line' : Nat} :
    columns line first last = columns line' first' last' ↔
      line = line' ∧ first = first' ∧ last = last' := by
  simp only [columns, Span.between.injEq, Location.mk.injEq]
  omega

@[simp] theorem columns_till_columns :
    (columns line first last).till (columns line first' last') =
      columns line first last' :=
  rfl

theorem within_columns_iff :
    (columns line first last).Within (columns line first' last') ↔
      first' ≤ first ∧ last ≤ last' := by
  constructor
  · rintro ⟨_, _, _, _, _, inner_eq, outer_eq, bounds⟩
    rw [columns_inj] at inner_eq outer_eq
    omega
  · rintro ⟨first_le, le_last⟩
    exact ⟨line, first, last, first', last', rfl, rfl, first_le, le_last⟩

theorem precedes_columns_iff :
    (columns line first last).Precedes (columns line first' last') ↔
      last < first' := by
  constructor
  · rintro ⟨_, _, _, _, _, earlier_eq, later_eq, bound⟩
    rw [columns_inj] at earlier_eq later_eq
    omega
  · intro last_lt
    exact ⟨line, first, last, first', last', rfl, rfl, last_lt⟩

end Span

namespace Token

/-- The tokens stand one behind the other on a line, from one column up to
another. -/
inductive Row (line : Nat) : Nat → List Token → Nat → Prop
  | nil {low high} : Row line low [] high
  | cons {low token first last rest high}
      (span_eq : token.span = .columns line first last) (low_le : low ≤ first)
      (first_le : first ≤ last) (last_le : last ≤ high)
      (row : Row line (last + 1) rest high) : Row line low (token :: rest) high

namespace Row

variable {line low high : Nat} {tokens rest : List Token}

theorem weaken {lower : Nat} (row : Row line low tokens high)
    (le_low : lower ≤ low) : Row line lower tokens high := by
  cases row with
  | nil => exact .nil
  | cons span_eq low_le first_le last_le row =>
      exact .cons span_eq (Nat.le_trans le_low low_le) first_le last_le row

/-- What remains of a row is a row from the same column on. -/
theorem suffix (row : Row line low tokens high) (isSuffix : rest <:+ tokens) :
    Row line low rest high := by
  induction row with
  | nil =>
      rw [List.suffix_nil.mp isSuffix]
      exact .nil
  | cons span_eq low_le first_le last_le row induction =>
      rcases List.suffix_cons_iff.mp isSuffix with rfl | later
      · exact .cons span_eq low_le first_le last_le row
      · exact (induction later).weaken (by omega)

end Row

theorem Tiles.row {line column high : Nat} {characters : List Char}
    {tokens : List Token} (tiles : Tiles line column characters tokens)
    (length_le : column + Text.byteLength characters ≤ high + 1) :
    Row line column tokens high := by
  induction tiles with
  | nil => exact .nil
  | blank isBlank tiles induction =>
      rw [Text.byteLength_cons] at length_le
      exact (induction (by omega)).weaken (Nat.le_add_right _ _)
  | @lexeme column kind lexeme after tokens spells ends tiles induction =>
      rw [Text.byteLength_append] at length_le
      have positive := spells.byteLength_pos
      have last_eq : column + Text.byteLength lexeme - 1 + 1 =
          column + Text.byteLength lexeme := by
        omega
      refine .cons rfl (Nat.le_refl _) (by omega) (by omega) ?_
      rw [last_eq]
      exact induction (by omega)

/-- The tokens of a text stand in a row on its line. -/
theorem row_of_scan {line : Nat} {text : String} {tokens : List Token}
    (scanned : scan line text = .ok tokens) :
    Row line 1 tokens text.utf8ByteSize :=
  (tiles_of_scan scanned).row (by rw [Text.utf8ByteSize_eq]; omega)

end Token

namespace Expr

/-- The parts that a tree is put together from, in the order in which they are
written. -/
def children : Expr → List Expr
  | .literal .. | .var _ => []
  | .binary _ left right => [left, right]
  | .assign target value => [target, value]
  | .conditional test onTrue onFalse => [test, onTrue, onFalse]
  | .call _ arguments _ => arguments

theorem nodes_eq_children (expression : Expr) :
    expression.nodes = expression :: nodesOfAll expression.children := by
  cases expression <;> simp [nodes, children, nodesOfAll]

/-- The places of a tree nest as the tree does, within some columns of a line.
-/
structure Nested (line low high : Nat) (expression : Expr) : Prop where
  located : ∀ node ∈ expression.nodes, ∃ first last,
    node.span = .columns line first last ∧ low ≤ first ∧ first ≤ last ∧
      last ≤ high
  within : ∀ node ∈ expression.nodes, ∀ child ∈ node.children,
    child.span.Within node.span
  increasing : ∀ node ∈ expression.nodes,
    node.children.Pairwise fun earlier later =>
      earlier.span.Precedes later.span

/-- Trees of this kind stand one behind the other within some columns. -/
structure NestedAll (line low high : Nat) (expressions : List Expr) :
    Prop where
  nested : ∀ expression ∈ expressions, expression.Nested line low high
  increasing : expressions.Pairwise fun earlier later =>
    earlier.span.Precedes later.span

variable {line low middle high : Nat} {expression whole first last : Expr}

namespace Nested

theorem self (nested : expression.Nested line low high) :
    ∃ first last, expression.span = .columns line first last ∧ low ≤ first ∧
      first ≤ last ∧ last ≤ high :=
  nested.located expression expression.mem_nodes_self

theorem widen {lower higher : Nat} (nested : expression.Nested line low high)
    (lower_le : lower ≤ low) (le_higher : high ≤ higher) :
    expression.Nested line lower higher where
  located node isNode := by
    obtain ⟨first, last, span_eq, low_le, first_le, last_le⟩ :=
      nested.located node isNode
    exact ⟨first, last, span_eq, by omega, first_le, by omega⟩
  within := nested.within
  increasing := nested.increasing

/-- Trees in columns that follow each other do so as well. -/
theorem precedes {later : Expr} (nested : expression.Nested line low middle)
    (nestedLater : later.Nested line (middle + 1) high) :
    expression.span.Precedes later.span := by
  obtain ⟨_, _, span_eq, -, -, last_le⟩ := nested.self
  obtain ⟨_, _, laterSpan_eq, le_first, -, -⟩ := nestedLater.self
  rw [span_eq, laterSpan_eq, Span.precedes_columns_iff]
  omega

end Nested

namespace NestedAll

theorem nil : NestedAll line low high [] :=
  ⟨nofun, .nil⟩

theorem singleton (nested : expression.Nested line low high) :
    NestedAll line low high [expression] :=
  ⟨List.forall_mem_singleton.mpr nested, List.pairwise_singleton _ _⟩

theorem widen {expressions : List Expr} {lower higher : Nat}
    (all : NestedAll line low high expressions) (lower_le : lower ≤ low)
    (le_higher : high ≤ higher) : NestedAll line lower higher expressions :=
  ⟨fun expression member => (all.nested expression member).widen lower_le
    le_higher, all.increasing⟩

/-- One more tree may stand behind some trees. -/
theorem append {before : List Expr} (all : NestedAll line low middle before)
    (nested : expression.Nested line (middle + 1) high)
    (low_le : low ≤ middle + 1) :
    NestedAll line low high (before ++ [expression]) := by
  obtain ⟨_, _, -, middle_lt, first_le, last_le⟩ := nested.self
  refine ⟨List.forall_mem_append.mpr ⟨?_, List.forall_mem_singleton.mpr ?_⟩,
    List.pairwise_append.mpr ⟨all.increasing, List.pairwise_singleton _ _, ?_⟩⟩
  · exact (all.widen (Nat.le_refl _) (by omega)).nested
  · exact nested.widen low_le (Nat.le_refl _)
  · intro earlier member
    exact List.forall_mem_singleton.mpr
      ((all.nested earlier member).precedes nested)

end NestedAll

namespace Nested

/-- A tree is nested if its children are and lie within it. -/
theorem of_children {start stop : Nat}
    (span_eq : whole.span = .columns line start stop) (low_le : low ≤ start)
    (start_le : start ≤ stop) (stop_le : stop ≤ high)
    (all : NestedAll line low high whole.children)
    (within : ∀ child ∈ whole.children, child.span.Within whole.span) :
    whole.Nested line low high := by
  refine ⟨?_, ?_, ?_⟩
  all_goals
    rw [nodes_eq_children]
    simp only [List.forall_mem_cons, mem_nodesOfAll]
  · refine ⟨⟨start, stop, span_eq, low_le, start_le, stop_le⟩, ?_⟩
    rintro node ⟨child, isChild, isNode⟩
    exact (all.nested child isChild).located node isNode
  · refine ⟨within, ?_⟩
    rintro node ⟨child, isChild, isNode⟩
    exact (all.nested child isChild).within node isNode
  · refine ⟨all.increasing, ?_⟩
    rintro node ⟨child, isChild, isNode⟩
    exact (all.nested child isChild).increasing node isNode

theorem leaf {start stop : Nat} (noChildren : whole.children = [])
    (span_eq : whole.span = .columns line start stop) (low_le : low ≤ start)
    (start_le : start ≤ stop) (stop_le : stop ≤ high) :
    whole.Nested line low high := by
  refine of_children span_eq low_le start_le stop_le ?_ ?_
  · rw [noChildren]
    exact .nil
  · rw [noChildren]
    exact List.forall_mem_nil _

/-- A tree that reaches from its first child to its last one is nested if its
children are. -/
theorem of_hull {between : List Expr}
    (children_eq : whole.children = first :: (between ++ [last]))
    (span_eq : whole.span = first.span.till last.span)
    (all : NestedAll line low high whole.children) :
    whole.Nested line low high := by
  have inOrder := all.increasing
  rw [children_eq, List.pairwise_cons, List.pairwise_append] at inOrder
  obtain ⟨afterFirst, -, -, beforeLast⟩ := inOrder
  have first_or_after : ∀ child ∈ whole.children,
      child = first ∨ first.span.Precedes child.span := by
    rw [children_eq, List.forall_mem_cons]
    exact ⟨.inl rfl, fun child later => .inr (afterFirst child later)⟩
  have last_or_before : ∀ child ∈ whole.children,
      child = last ∨ child.span.Precedes last.span := by
    rw [children_eq, List.forall_mem_cons, List.forall_mem_append,
      List.forall_mem_singleton]
    exact ⟨.inr (afterFirst last (by simp)),
      fun child inside => .inr (beforeLast child inside last (by simp)),
      .inl rfl⟩
  obtain ⟨start, firstStop, first_eq, low_le, start_le, -⟩ :=
    (all.nested first (by simp [children_eq])).self
  obtain ⟨lastStart, stop, last_eq, -, lastStart_le, stop_le⟩ :=
    (all.nested last (by simp [children_eq])).self
  rw [first_eq, last_eq, Span.columns_till_columns] at span_eq
  -- No child starts before the first one or ends after the last one.
  have bounds : ∀ child ∈ whole.children, ∃ childStart childStop,
      child.span = .columns line childStart childStop ∧ start ≤ childStart ∧
        childStart ≤ childStop ∧ childStop ≤ stop := by
    intro child isChild
    obtain ⟨childStart, childStop, child_eq, -, childStart_le, -⟩ :=
      (all.nested child isChild).self
    have atFirst := first_or_after child isChild
    have atLast := last_or_before child isChild
    refine ⟨childStart, childStop, child_eq, ?_, childStart_le, ?_⟩
    · rcases atFirst with rfl | precedes
      · rw [first_eq, Span.columns_inj] at child_eq
        omega
      · rw [first_eq, child_eq, Span.precedes_columns_iff] at precedes
        omega
    · rcases atLast with rfl | precedes
      · rw [last_eq, Span.columns_inj] at child_eq
        omega
      · rw [last_eq, child_eq, Span.precedes_columns_iff] at precedes
        omega
  have start_le_stop : start ≤ stop := by
    obtain ⟨_, _, -, le_first, first_le, le_stop⟩ :=
      bounds first (by simp [children_eq])
    omega
  refine of_children span_eq low_le start_le_stop stop_le all ?_
  intro child isChild
  obtain ⟨_, _, child_eq, le_start, -, stop_le⟩ := bounds child isChild
  rw [child_eq, span_eq, Span.within_columns_iff]
  exact ⟨le_start, stop_le⟩

/-- A tree with two children that follow each other. -/
theorem pair (children_eq : whole.children = [first, last])
    (span_eq : whole.span = first.span.till last.span)
    (nestedFirst : first.Nested line low middle)
    (nestedLast : last.Nested line (middle + 1) high) :
    whole.Nested line low high := by
  obtain ⟨_, _, -, low_le, start_le, le_middle⟩ := nestedFirst.self
  have all : NestedAll line low high ([first] ++ [last]) :=
    (NestedAll.singleton nestedFirst).append nestedLast (by omega)
  rw [List.singleton_append, ← children_eq] at all
  exact @of_hull _ _ _ _ first last [] children_eq span_eq all

/-- A conditional whose parts follow each other. -/
theorem conditional {test onTrue onFalse : Expr} {between : Nat}
    (nestedTest : test.Nested line low middle)
    (nestedTrue : onTrue.Nested line (middle + 1) between)
    (nestedFalse : onFalse.Nested line (between + 1) high) :
    (Expr.conditional test onTrue onFalse).Nested line low high := by
  obtain ⟨_, _, -, low_le, test_le, le_middle⟩ := nestedTest.self
  obtain ⟨_, _, -, middle_lt, true_le, le_between⟩ := nestedTrue.self
  have branches : NestedAll line low between ([test] ++ [onTrue]) :=
    (NestedAll.singleton nestedTest).append nestedTrue (by omega)
  exact @of_hull _ _ _ _ test onFalse [onTrue] rfl rfl
    (branches.append nestedFalse (by omega))

/-- A call from its name to its closing parenthesis, with its arguments between
them. -/
theorem call {callee : Name} {arguments : List Expr} {close : Span}
    {start stop closeStart closeStop : Nat}
    (callee_eq : callee.span = .columns line start stop)
    (close_eq : close = .columns line closeStart closeStop)
    (all : NestedAll line (stop + 1) middle arguments) (low_le : low ≤ start)
    (start_le : start ≤ stop) (stop_le : stop ≤ middle)
    (middle_lt : middle < closeStart) (closeStart_le : closeStart ≤ closeStop)
    (closeStop_le : closeStop ≤ high) :
    (Expr.call callee arguments close).Nested line low high := by
  have span_eq : (Expr.call callee arguments close).span =
      .columns line start closeStop := by
    rw [Expr.span, callee_eq, close_eq, Span.columns_till_columns]
  refine of_children span_eq low_le (by omega) closeStop_le
    (all.widen (by omega) (by omega)) ?_
  intro argument given
  obtain ⟨_, _, argument_eq, le_first, -, last_le⟩ :=
    (all.nested argument given).self
  rw [argument_eq, span_eq, Span.within_columns_iff]
  omega

end Nested
end Expr

namespace Grammar

open Token (Row)

mutual

/-- A phrase takes up the front of a row.  Its tree is nested in the columns
there, and what follows stands in the columns behind them. -/
theorem Reads.nested {line high : Nat} {category : Category}
    {tokens rest : List Token} {expression : Expr} {entries : Nat} :
    Reads category tokens expression rest entries →
      ∀ {low}, Row line low tokens high →
        ∃ middle ≤ high, expression.Nested line low middle ∧
          Row line (middle + 1) rest high
  | .number _, low, .cons span_eq low_le first_le last_le row =>
      ⟨_, last_le, .leaf rfl span_eq low_le first_le (Nat.le_refl _), row⟩
  | .name _ _, low, .cons span_eq low_le first_le last_le row =>
      ⟨_, last_le, .leaf rfl span_eq low_le first_le (Nat.le_refl _), row⟩
  | .parentheses _ inner _, low, .cons _ low_le first_le _ row => by
      obtain ⟨middle, -, nested, closed⟩ := inner.nested row
      cases closed with
      | cons _ middle_lt closing_le closing_le_high after =>
          exact ⟨_, closing_le_high, nested.widen (by omega) (by omega), after⟩
  | .negation _ product _, low, .cons span_eq low_le first_le last_le row => by
      obtain ⟨middle, middle_le, nested, after⟩ := product.nested row
      have sign : (Expr.literal 0 _).Nested line low _ :=
        .leaf rfl span_eq low_le first_le (Nat.le_refl _)
      exact ⟨middle, middle_le, .pair rfl rfl sign nested, after⟩
  | .emptyCall _ _ _, low, .cons span_eq low_le first_le last_le
      (.cons _ opening_le opening_le_last _
        (.cons close_eq close_le close_le_last close_le_high row)) =>
      ⟨_, close_le_high, .call span_eq close_eq .nil low_le first_le
        (by omega) close_le close_le_last (Nat.le_refl _), row⟩
  | .call _ _ given _, low, .cons span_eq low_le first_le last_le
      (.cons _ opening_le opening_le_last _ row) => by
      obtain ⟨middle, -, le_middle, all, closed⟩ := given.nested row
      cases closed with
      | cons close_eq close_le close_le_last close_le_high after =>
          exact ⟨_, close_le_high, .call span_eq close_eq
            (all.widen (by omega) (Nat.le_refl _)) low_le first_le (by omega)
            (by omega) close_le_last (Nat.le_refl _), after⟩
  | .operand reads _, _, row => reads.nested row
  | .test reads _, _, row => reads.nested row
  | .value reads _ _, _, row => reads.nested row
  | .operation before _ reads _, low, row => by
      obtain ⟨middle, -, nested, behind⟩ := before.nested row
      cases behind with
      | cons _ middle_lt sign_le _ after =>
          obtain ⟨last, last_le, nestedRight, after⟩ := reads.nested after
          exact ⟨last, last_le, .pair rfl rfl nested
            (nestedRight.widen (by omega) (Nat.le_refl _)), after⟩
  | .branches before _ readsTrue _ readsFalse, low, row => by
      obtain ⟨middle, -, nested, behind⟩ := before.nested row
      cases behind with
      | cons _ middle_lt question_le _ after =>
      obtain ⟨between, -, nestedTrue, behind⟩ := readsTrue.nested after
      cases behind with
      | cons _ between_lt colon_le _ after =>
      obtain ⟨last, last_le, nestedFalse, after⟩ := readsFalse.nested after
      exact ⟨last, last_le, .conditional nested
        (nestedTrue.widen (by omega) (Nat.le_refl _))
        (nestedFalse.widen (by omega) (Nat.le_refl _)), after⟩
  | .store readsTarget _ readsValue, low, row => by
      obtain ⟨middle, -, nested, behind⟩ := readsTarget.nested row
      cases behind with
      | cons _ middle_lt sign_le _ after =>
          obtain ⟨last, last_le, nestedValue, after⟩ := readsValue.nested after
          exact ⟨last, last_le, .pair rfl rfl nested
            (nestedValue.widen (by omega) (Nat.le_refl _)), after⟩

theorem ReadsArguments.nested {line high : Nat} {tokens rest : List Token}
    {arguments : List Expr} {entries : Nat} :
    ReadsArguments tokens arguments rest entries →
      ∀ {low}, Row line low tokens high →
        ∃ middle ≤ high, low ≤ middle ∧
          Expr.NestedAll line low middle arguments ∧
          Row line (middle + 1) rest high
  | .one reads, low, row => by
      obtain ⟨middle, middle_le, nested, after⟩ := reads.nested row
      obtain ⟨_, _, -, low_le, first_le, last_le⟩ := nested.self
      exact ⟨middle, middle_le, by omega, .singleton nested, after⟩
  | .more readsBefore _ reads, low, row => by
      obtain ⟨middle, -, low_le, all, behind⟩ := readsBefore.nested row
      cases behind with
      | cons _ middle_lt comma_le _ after =>
          obtain ⟨last, last_le, nested, after⟩ := reads.nested after
          obtain ⟨_, _, -, _, _, _⟩ := nested.self
          exact ⟨last, last_le, by omega,
            all.append (nested.widen (by omega) (Nat.le_refl _)) (by omega),
            after⟩

end

end Grammar

open Grammar in
/-- The places of the expression that a text stands for, or of the body of the
function that it defines, nest within the columns of the text. -/
theorem TokenSequence.nested_of_parse {line : Nat} {text : String}
    {sequence : TokenSequence} {statement : Statement}
    (scanned : scan line text = .ok sequence)
    (parsed : sequence.parse = .ok statement) :
    statement.body.Nested line 1 text.utf8ByteSize := by
  obtain ⟨tokens, scannedTokens, rfl⟩ : ∃ tokens,
      Token.scan line text = .ok tokens ∧ ofList tokens = sequence := by
    rw [scan] at scanned
    cases tokens_eq : Token.scan line text with
    | error error =>
        rw [tokens_eq] at scanned
        cases scanned
    | ok tokens =>
        rw [tokens_eq] at scanned
        cases scanned
        exact ⟨tokens, rfl, rfl⟩
  have row := Token.row_of_scan scannedTokens
  obtain ⟨⟨entries, -, derives⟩, -⟩ := admits_of_parse parsed
  change Derives tokens statement entries at derives
  cases derives with
  | expression reads =>
      obtain ⟨middle, middle_le, nested, -⟩ := reads.nested row
      exact nested.widen (Nat.le_refl _) middle_le
  | @definition keyword function opening behind _ closing sign afterSign _ _ _
      _ _ readsParameters _ _ readsBody =>
      have isSuffix : afterSign <:+ keyword :: function :: opening :: behind :=
        (List.IsSuffix.trans ⟨[closing, sign], rfl⟩
          readsParameters.rest_suffix).trans ⟨[_, _, _], rfl⟩
      obtain ⟨middle, middle_le, nested, -⟩ :=
        readsBody.nested (row.suffix isSuffix)
      exact nested.widen (Nat.le_refl _) middle_le

set_option maxRecDepth 10000 in
/-- The product that is negated begins in parentheses, which are no part of it,
and a blank of three bytes moves its second factor. -/
theorem TokenSequence.nested_of_negated_product :
    let text := "-(x)\u3000* f(y)"
    let negated : Expr := .binary .times (.var ⟨"x", .columns 7 3 3⟩)
      (.call ⟨"f", .columns 7 10 10⟩ [.var ⟨"y", .columns 7 12 12⟩]
        (.columns 7 13 13))
    let expression : Expr :=
      .binary .minus (.literal 0 (.columns 7 1 1)) negated
    ∃ sequence, scan 7 text = .ok sequence ∧
      sequence.parse = .ok (.expression expression) ∧
      expression.Nested 7 1 text.utf8ByteSize := by
  intro text negated expression
  let tokens : List Token :=
    [⟨.minus, "-", .columns 7 1 1⟩, ⟨.leftParenthesis, "(", .columns 7 2 2⟩,
      ⟨.name, "x", .columns 7 3 3⟩, ⟨.rightParenthesis, ")", .columns 7 4 4⟩,
      ⟨.star, "*", .columns 7 8 8⟩, ⟨.name, "f", .columns 7 10 10⟩,
      ⟨.leftParenthesis, "(", .columns 7 11 11⟩,
      ⟨.name, "y", .columns 7 12 12⟩,
      ⟨.rightParenthesis, ")", .columns 7 13 13⟩]
  have scannedTokens : Token.scan 7 text = .ok tokens := by decide +kernel
  have scanned : scan 7 text = .ok (.ofList tokens) := by
    rw [scan, scannedTokens]
    rfl
  have parsed : (ofList tokens).parse = .ok (.expression expression) := by
    cbv
  exact ⟨.ofList tokens, scanned, parsed, nested_of_parse scanned parsed⟩

end Calculator
