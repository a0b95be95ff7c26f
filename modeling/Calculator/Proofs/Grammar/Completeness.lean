import Calculator.Proofs.Grammar.Rule

/-!
# What is derivable is accepted within the limits

A rule finds every reading of a permitted tree that fits the room for nesting
and the greatest height, and refuses every other one because it is too deep.
Both are said at once: the outcome of a rule is settled by whether the reading
fits.
-/

namespace Calculator
namespace Grammar

/-- The outcome is the expected one if the reading fits, and the complaint that
it is too deep otherwise. -/
def Settles {Result : Type} (fits : Prop)
    (outcome expected : Except SyntaxError Result) : Prop :=
  (fits ∧ outcome = expected) ∨
    (¬fits ∧ ∃ span limit, outcome = .error (.tooDeep span limit))

namespace Settles

variable {Result Result' : Type} {fits fits' : Prop}

theorem of_eq {outcome expected : Except SyntaxError Result} (fitting : fits)
    (same : outcome = expected) : Settles fits outcome expected :=
  .inl ⟨fitting, same⟩

theorem congr {outcome expected : Except SyntaxError Result}
    (settled : Settles fits outcome expected) (same : fits = fits') :
    Settles fits' outcome expected := by
  exact same ▸ settled

theorem trans {outcome between expected : Except SyntaxError Result}
    (first : Settles fits outcome between)
    (second : Settles fits' between expected) :
    Settles (fits ∧ fits') outcome expected := by
  rcases first with ⟨fitting, rfl⟩ | ⟨unfit, refused⟩
  · rcases second with ⟨fitting', same⟩ | ⟨unfit, refused⟩
    · exact .inl ⟨⟨fitting, fitting'⟩, same⟩
    · exact .inr ⟨fun both => unfit both.2, refused⟩
  · exact .inr ⟨fun both => unfit both.1, refused⟩

theorem bind {first : Except SyntaxError Result} {value : Result}
    {next : Result → Except SyntaxError Result'}
    {expected : Except SyntaxError Result'}
    (settled : Settles fits first (.ok value))
    (rest : Settles fits' (next value) expected) :
    Settles (fits ∧ fits') (first >>= next) expected := by
  have reached : Settles fits (first >>= next) (next value) := by
    rcases settled with ⟨fitting, rfl⟩ | ⟨unfit, span, limit, rfl⟩
    · exact .inl ⟨fitting, rfl⟩
    · exact .inr ⟨unfit, span, limit, rfl⟩
  exact reached.trans rest

theorem grow (height : Nat) (place : Span) :
    Settles (height + 1 ≤ maximumHeight) (Grammar.grow height place)
      (.ok (height + 1)) := by
  by_cases inLimit : height + 1 ≤ maximumHeight
  · exact .inl ⟨inLimit, grow_of_le place inLimit⟩
  · exact .inr ⟨inLimit, place, maximumHeight, grow_of_not_le place inLimit⟩

end Settles

/-- The reading keeps to the room for nesting and to the greatest height. -/
def Fits (room entries : Nat) (expression : Expr) : Prop :=
  entries ≤ room ∧ expression.height ≤ maximumHeight

/-- Every ended phrase of the category settles the outcome of the rule. -/
def Complete (category : Category) (room : Nat) (rule : Rule) : Prop :=
  ∀ ⦃tokens expression rest entries⦄
    (reads : Reads category tokens expression rest entries),
    category.Ends rest → expression.Permitted →
      Settles (Fits room entries expression) (rule tokens)
        (.ok ⟨expression, expression.height, rest, reads.rest_lt⟩)

theorem chainFrom_of_ends {level : Level} {operand : Rule} {bound : Nat}
    {left : Expr} {height : Nat} {rest : List Token}
    {rest_lt : rest.length < bound} (ends : (Category.chain level).Ends rest) :
    chainFrom level.operator? operand left height rest rest_lt =
      .ok ⟨left, height, rest, rest_lt⟩ := by
  unfold chainFrom
  cases rest with
  | nil => rfl
  | cons token rest =>
      simp only [Level.ends_cons.mp ends]

theorem settles_chain_prefix {level : Level} {room : Nat} {operand : Rule}
    (complete : Complete level.operand room operand) {tokens rest : List Token}
    {left : Expr} {entries : Nat} :
    (reads : Reads (.chain level) tokens left rest entries) →
      left.Permitted →
        Settles (Fits room entries left) (chain level.operator? operand tokens)
          (chainFrom level.operator? operand left left.height rest
            reads.rest_lt)
  | .operand reads ends, permitted => by
      have first := complete reads ends permitted
      exact (first.bind (.of_eq trivial rfl)).congr (and_true _)
  | .operation before isOperator reads ends, permitted => by
      obtain ⟨leftPermitted, rightPermitted⟩ :=
        (Expr.permitted_binary ..).mp permitted
      have soFar := settles_chain_prefix complete before leftPermitted
      have right := complete reads ends rightPermitted
      rw [chainFrom] at soFar
      simp only [Level.operator?_eq_some_iff.mpr isOperator] at soFar
      refine (soFar.trans (right.bind
        ((Settles.grow _ _).bind (.of_eq trivial rfl)))).congr ?_
      simp only [Fits, Expr.height, and_true, eq_iff_iff]
      omega

theorem complete_chain (level : Level) {room : Nat} {operand : Rule}
    (complete : Complete level.operand room operand) :
    Complete (.chain level) room (chain level.operator? operand) := by
  intro tokens expression rest entries reads ends permitted
  have settled := settles_chain_prefix complete reads permitted
  rw [chainFrom_of_ends ends] at settled
  exact settled

theorem complete_comparison {room : Nat} {factorRule : Rule}
    (complete : Complete .factor room factorRule) :
    Complete (.chain .comparison) room (comparison factorRule) :=
  complete_chain .comparison
    (complete_chain .sum (complete_chain .product complete))

theorem conditionalFrom_of_ends {branch : Rule} {bound : Nat} {test : Expr}
    {height : Nat} {rest : List Token} {rest_lt : rest.length < bound}
    (ends : Category.conditional.Ends rest) :
    conditionalFrom branch test height rest rest_lt =
      .ok ⟨test, height, rest, rest_lt⟩ := by
  have notAsked : take? .question rest = none := take?_eq_none.mpr ends
  rw [conditionalFrom]
  simp only [notAsked]

section Rules

variable {room : Nat} {assignRule factorRule : Rule}
  (assignComplete : Complete .assign room assignRule)
  (factorComplete : Complete .factor room factorRule)
include assignComplete

section

include factorComplete

theorem settles_conditional_prefix {tokens rest : List Token} {test : Expr}
    {entries : Nat} :
    (reads : Reads .conditional tokens test rest entries) → test.Permitted →
      Settles (Fits room entries test)
        (conditional assignRule factorRule tokens)
        (conditionalFrom assignRule test test.height rest reads.rest_lt)
  | .test reads ends, permitted => by
      have first := complete_comparison factorComplete reads ends permitted
      exact (first.bind (.of_eq trivial rfl)).congr (and_true _)
  | .branches before asks readsTrue separates readsFalse, permitted => by
      obtain ⟨testPermitted, truePermitted, falsePermitted⟩ :=
        (Expr.permitted_conditional ..).mp permitted
      have soFar := settles_conditional_prefix before testPermitted
      have onTrue := assignComplete readsTrue trivial truePermitted
      have onFalse := assignComplete readsFalse trivial falsePermitted
      rw [conditionalFrom] at soFar
      simp only [take?_cons _ asks] at soFar
      refine (soFar.trans (onTrue.bind
        ((Settles.of_eq trivial (expect_cons _ _ separates)).bind
          (onFalse.bind ((Settles.grow _ _).bind
            (.of_eq trivial rfl)))))).congr ?_
      simp only [Fits, Expr.height, and_true, true_and, eq_iff_iff]
      omega

theorem complete_conditional :
    Complete .conditional room (conditional assignRule factorRule) := by
  intro tokens expression rest entries reads ends permitted
  have settled := settles_conditional_prefix assignComplete factorComplete reads
    permitted
  rw [conditionalFrom_of_ends ends] at settled
  exact settled

theorem complete_assignment :
    Complete .assign (room + 1) (assignment assignRule factorRule) := by
  intro tokens expression rest entries reads _ permitted
  have conditionalComplete := complete_conditional assignComplete factorComplete
  cases reads with
  | value reads ends noSign =>
      have notSigned := take?_eq_none.mpr noSign
      refine ((conditionalComplete reads ends permitted).bind
        (.of_eq trivial ?_)).congr ?_
      · simp only [notSigned]
        rfl
      · simp only [Fits, and_true, Nat.add_le_add_iff_right]
  | @store _ target sign afterSign value _ entries valueEntries readsTarget
      isSign readsValue =>
      obtain ⟨⟨name, rfl⟩, valuePermitted⟩ :=
        (Expr.permitted_assign ..).mp permitted
      have ends : Category.conditional.Ends (sign :: afterSign) := by
        simp [Category.Ends, isSign]
      have readTarget :=
        conditionalComplete readsTarget ends (Expr.permitted_var name)
      have readValue := assignComplete readsValue trivial valuePermitted
      apply Settles.congr
      · apply Settles.bind readTarget
        simp only [take?_cons _ isSign]
        exact readValue.bind ((Settles.grow _ _).bind (.of_eq trivial rfl))
      · simp only [Fits, Expr.height, and_true, eq_iff_iff]
        omega

end

/-- What becomes of a call once some arguments are read: it goes on after a
comma. -/
def afterArguments (argument : Rule) (callee : Name) {bound : Nat}
    (before : List Expr) (rest : List Token) (rest_lt : rest.length < bound) :
    Except SyntaxError (ParsedArguments bound) :=
  match take? .comma rest with
  | none => .ok ⟨before, Expr.greatestHeight before, rest, rest_lt⟩
  | some comma =>
    argumentsFrom argument callee before (Expr.greatestHeight before) comma.rest
      (Nat.lt_trans comma.rest_lt rest_lt)

theorem settles_argumentsFrom (callee : Name) {bound : Nat}
    {before : List Expr} {tokens rest : List Token} {argument : Expr}
    {entries : Nat} (tokens_lt : tokens.length < bound)
    (few : before.length < maximumArity)
    (reads : Reads .assign tokens argument rest entries)
    (permitted : argument.Permitted) :
    Settles (Fits room entries argument)
      (argumentsFrom assignRule callee before (Expr.greatestHeight before)
        tokens tokens_lt)
      (afterArguments assignRule callee (before ++ [argument]) rest
        (Nat.lt_trans reads.rest_lt tokens_lt)) := by
  have notFull : before.length ≠ maximumArity := by omega
  have read := assignComplete reads trivial permitted
  rw [argumentsFrom]
  simp only [notFull, if_false]
  refine (read.bind (.of_eq trivial ?_)).congr (and_true _)
  simp only [afterArguments, Expr.greatestHeight_append]
  cases take? .comma rest <;> rfl

theorem settles_arguments_prefix (callee : Name) {tokens rest : List Token}
    {before : List Expr} {entries : Nat}
    (reads : ReadsArguments tokens before rest entries)
    (few : before.length ≤ maximumArity)
    (permitted : ∀ argument ∈ before, argument.Permitted) :
    Settles (entries ≤ room ∧ Expr.greatestHeight before ≤ maximumHeight)
      (argumentsFrom assignRule callee [] 0 tokens (Nat.lt_succ_self _))
      (afterArguments assignRule callee before rest
        (Nat.lt_succ_of_lt reads.rest_lt)) := by
  cases reads with
  | one reads =>
      refine (settles_argumentsFrom assignComplete callee (Nat.lt_succ_self _)
        few reads (permitted _ (List.mem_singleton_self _))).congr ?_
      simp only [Fits, Expr.greatestHeight, Nat.max_zero]
  | more readsBefore separates reads =>
      simp only [List.length_append, List.length_singleton] at few
      -- The last argument comes off, so the induction is on how many there are.
      have soFar := settles_arguments_prefix callee readsBefore (by omega)
        fun argument member =>
          permitted argument (List.mem_append_left _ member)
      have next := settles_argumentsFrom assignComplete callee
        (Nat.lt_succ_of_lt (Nat.lt_of_succ_lt readsBefore.rest_lt)) few reads
        (permitted _ (List.mem_append_right _ (List.mem_singleton_self _)))
      simp only [afterArguments, take?_cons _ separates] at soFar
      refine (soFar.trans next).congr ?_
      simp only [Fits, Expr.greatestHeight_append, eq_iff_iff]
      omega
termination_by before.length
decreasing_by
  simp_all only [List.length_append, List.length_singleton, Nat.lt_add_one]

theorem settles_call (callee : Token) {tokens rest : List Token}
    {given : List Expr} {closing : Token} {entries : Nat}
    (reads : ReadsArguments tokens given (closing :: rest) entries)
    (closes : closing.kind = .rightParenthesis)
    (few : given.length ≤ maximumArity)
    (permitted : ∀ argument ∈ given, argument.Permitted) :
    Settles
      (entries ≤ room ∧ Expr.greatestHeight given + 1 ≤ maximumHeight)
      (call assignRule callee.asName tokens)
      (.ok ⟨.call callee.asName given closing.span,
        Expr.greatestHeight given + 1, rest,
        Nat.lt_of_succ_lt reads.rest_lt⟩) := by
  have notClosed : take? .rightParenthesis tokens = none :=
    take?_eq_none.mpr reads.begins.nextKind?_ne
  have noComma : take? .comma (closing :: rest) = none :=
    take?_eq_none.mpr (by simp [closes])
  have readArguments := settles_arguments_prefix assignComplete callee.asName
    reads few permitted
  simp only [afterArguments, noComma] at readArguments
  apply Settles.congr
  · apply Settles.bind
    · simp only [arguments, notClosed]
      exact readArguments
    · exact (Settles.of_eq trivial (expect_cons _ _ closes)).bind
        ((Settles.grow _ _).bind (.of_eq trivial rfl))
  · simp only [and_true, true_and, eq_iff_iff]
    omega

include factorComplete

theorem complete_primary :
    Complete .factor (room + 1) (primary assignRule factorRule) := by
  intro tokens expression rest entries reads _ permitted
  cases reads with
  | number isNumber =>
      apply Settles.of_eq ⟨by omega, one_le_maximumHeight⟩
      simp only [primary, isNumber, Token.value_eq_numeral]
      rfl
  | name isName noCall =>
      apply Settles.of_eq ⟨by omega, one_le_maximumHeight⟩
      simp only [primary, isName.kind, nameOf_of_isName isName, ok_bind,
        take?_eq_none.mpr noCall]
      rfl
  | parentheses opens inner closes =>
      have readInner := assignComplete inner trivial permitted
      apply Settles.congr
      · simp only [primary, opens]
        exact readInner.bind ((Settles.of_eq trivial
          (expect_cons _ _ closes)).bind (.of_eq trivial rfl))
      · simp only [Fits, and_true, Nat.add_le_add_iff_right]
  | @negation sign _ operand _ entries isMinus product ends =>
      obtain ⟨-, operandPermitted⟩ := (Expr.permitted_binary ..).mp permitted
      have readOperand :=
        complete_chain .product factorComplete product ends operandPermitted
      have positive := operand.height_pos
      have height_eq :
          (Expr.binary .minus (.literal 0 sign.span) operand).height =
            operand.height + 1 := by
        simp only [Expr.height]
        omega
      simp only [height_eq]
      apply Settles.congr
      · simp only [primary, isMinus]
        exact readOperand.bind ((Settles.grow _ _).bind (.of_eq trivial rfl))
      · simp only [Fits, and_true, height_eq, eq_iff_iff]
        omega
  | emptyCall isName opens closes =>
      apply Settles.of_eq ⟨by omega, one_le_maximumHeight⟩
      simp only [primary, isName.kind, nameOf_of_isName isName, ok_bind,
        take?_cons _ opens, call, arguments, take?_cons _ closes,
        expect_cons _ _ closes, grow_of_le _ one_le_maximumHeight]
      rfl
  | @call callee _ _ _ _ _ _ isName opens given closes =>
      obtain ⟨few, argumentsPermitted⟩ := (Expr.permitted_call ..).mp permitted
      have readCall := settles_call assignComplete callee given closes few
        argumentsPermitted
      apply Settles.congr
      · simp only [primary, isName.kind, nameOf_of_isName isName, ok_bind,
          take?_cons _ opens]
        exact readCall.bind (.of_eq trivial rfl)
      · simp only [Fits, Expr.height, and_true, Nat.add_le_add_iff_right]

end Rules

/-- Without room there is nothing but the complaint. -/
theorem settles_exhausted {category : Category} {tokens rest : List Token}
    {expression : Expr} {entries : Nat}
    (reads : Reads category tokens expression rest entries)
    (positive : 0 < entries) :
    Settles (Fits 0 entries expression) (exhausted tokens)
      (.ok ⟨expression, expression.height, rest, reads.rest_lt⟩) :=
  .inr ⟨fun fits => by have := fits.1; omega, _, _, rfl⟩

mutual

theorem complete_assign (room : Nat) : Complete .assign room (assign room) := by
  cases room with
  | zero =>
      intro tokens expression rest entries reads _ _
      rw [assign]
      apply settles_exhausted reads
      cases reads <;> exact Nat.succ_pos _
  | succ room =>
      rw [assign]
      exact complete_assignment (complete_assign room) (complete_factor room)

theorem complete_factor (room : Nat) : Complete .factor room (factor room) := by
  cases room with
  | zero =>
      intro tokens expression rest entries reads _ _
      rw [factor]
      apply settles_exhausted reads
      cases reads <;> exact Nat.succ_pos _
  | succ room =>
      rw [factor]
      exact complete_primary (complete_assign room) (complete_factor room)

end

end Grammar
end Calculator
