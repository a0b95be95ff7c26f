import Calculator.Proofs.Grammar.Courses

/-!
# The contract of the productions

Every production of the machine comes to an end, whatever its tokens are and
wherever it starts.  It reads what the rule of the same name reads, consumes at
least one token if it reads an expression, and has noted the height of that
expression by then.  Whether it fails or not, it ends on the level of nesting
where it began, and it has never gone deeper than the limit, changed the tokens
or moved the cursor other than forwards.
-/

namespace Calculator
namespace Parser

open Grammar

/-- The height that is noted is that of the expression and within the limit. -/
structure Measures (expression : Expr) (final : Course) : Prop where
  height_eq : final.parser.height = expression.height
  height_le : expression.height ≤ maximumHeight

/-- A tree that has just grown has been measured. -/
theorem Measures.of_grown {expression : Expr} {tallest : Nat} {grown : Course}
    (height_eq : grown.parser.height = tallest + 1)
    (taller_le : tallest + 1 ≤ maximumHeight)
    (whole_eq : expression.height = tallest + 1) :
    Measures expression grown :=
  ⟨height_eq.trans whole_eq.symm, whole_eq ▸ taller_le⟩

/-- The expression took at least one token, and it has been measured. -/
structure Accepts (start : Course) (expression : Expr) (final : Course) :
    Prop where
  cursor_lt : start.cursor < final.cursor
  measures : Measures expression final

namespace Production

/-- What a rule reads where the machine has room for so many levels more. -/
def reading (room : Nat) : Production → Step Measured
  | .assign => step (Grammar.assign room)
  | .assignment =>
    step (Grammar.assignment (Grammar.assign room) (Grammar.factor room))
  | .conditional =>
    step (Grammar.conditional (Grammar.assign room) (Grammar.factor room))
  | .chain .comparison => step (Grammar.comparison (Grammar.factor room))
  | .chain .sum => step (Grammar.sum (Grammar.factor room))
  | .chain .product => step (Grammar.product (Grammar.factor room))
  | .factor => step (Grammar.factor room)
  | .primary =>
    step (Grammar.primary (Grammar.assign room) (Grammar.factor room))
  | .call => do
    let callee ← Step.name "function name"
    let _ ← Step.expect .leftParenthesis "'('"
    step (Grammar.call (Grammar.assign room) callee)

/-- Wherever there is room for so many levels more, the production comes to an
end and reads what the rule reads. -/
def Keeps (production : Production) (room : Nat) : Prop :=
  ∀ start : Course, start.HasRoom room →
    Meets (run · production) start (production.reading room) Measured.mk
      (Accepts start)

end Production

variable {room : Nat}

/-! ### Chains -/

theorem meets_chainFrom {level : Level} {rule : Rule}
    (reading_eq : (operand level).reading room = step rule)
    (keeps : (operand level).Keeps room) {start : Course} {left : Expr}
    (hasRoom : start.HasRoom room) (height_le : left.height ≤ maximumHeight) :
    Meets (chainFrom · level left left.height) start
      (chainStep level.operator? rule ⟨left, left.height⟩) Measured.mk
      Measures := by
  induction size : start.remaining.length using Nat.strongRecOn
    generalizing start left with
  | _ length induction =>
  rw [chainStep_eq]
  apply Meets.succ _ (fun depth => rfl)
  apply Meets.after_match? (fun _ => rfl)
  · intro noOperator
    apply Meets.after_note
    exact .pure ⟨rfl, height_le⟩ rfl
  · intro operator sign course found consumes
    rw [← reading_eq]
    apply (keeps course (consumes.follows.hasRoom hasRoom)).bind
    intro right afterRight follows accepts
    apply Meets.after_noted
    rw [accepts.measures.height_eq]
    apply (Meets.grow _ _).bind
    rintro - grown grows ⟨height_eq, taller_le⟩
    apply Meets.after_noted
    simp only [found]
    have measures : Measures (.binary operator left right) grown :=
      .of_grown height_eq taller_le rfl
    have shorter : grown.remaining.length < length := by
      have := consumes.length_remaining_lt
      have := follows.length_remaining_le
      have := grows.length_remaining_le
      omega
    rw [measures.height_eq]
    have goesOn := (consumes.follows.trans follows).trans grows
    exact induction _ shorter (goesOn.hasRoom hasRoom) measures.height_le rfl

theorem keeps_chain {level : Level} {rule : Rule}
    (operand_eq : (operand level).reading room = step rule)
    (reading_eq : (Production.chain level).reading room =
      step (chain level.operator? rule))
    (keeps : (operand level).Keeps room) :
    (Production.chain level).Keeps room := by
  intro start hasRoom
  rw [reading_eq, step_chain, ← operand_eq]
  apply Meets.succ _ (fun depth => rfl)
  apply (keeps start hasRoom).bind
  intro first course follows accepts
  apply Meets.after_noted
  rw [accepts.measures.height_eq]
  apply (meets_chainFrom operand_eq keeps (follows.hasRoom hasRoom)
    accepts.measures.height_le).weaken
  intro expression final goesOn measures
  exact ⟨Nat.lt_of_lt_of_le accepts.cursor_lt goesOn.cursor_le, measures⟩

section Levels

variable (keeps : Production.factor.Keeps room)
include keeps

theorem keeps_product : (Production.chain .product).Keeps room :=
  keeps_chain rfl rfl keeps

theorem keeps_sum : (Production.chain .sum).Keeps room :=
  keeps_chain rfl rfl (keeps_product keeps)

theorem keeps_comparison : (Production.chain .comparison).Keeps room :=
  keeps_chain rfl rfl (keeps_sum keeps)

end Levels

/-! ### Conditionals and assignments -/

theorem decide_eq_only (kind other : TokenKind) :
    decide (other = kind) = (only kind other).isSome := by
  unfold only
  split <;> simp [*]

theorem meets_conditionalFrom (keeps : Production.assign.Keeps room)
    {start : Course} {test : Expr} (hasRoom : start.HasRoom room)
    (height_le : test.height ≤ maximumHeight) :
    Meets (conditionalFrom · test test.height) start
      (conditionalStep (Grammar.assign room) ⟨test, test.height⟩) Measured.mk
      Measures := by
  induction size : start.remaining.length using Nat.strongRecOn
    generalizing start test with
  | _ length induction =>
  rw [conditionalStep_eq]
  apply Meets.succ _ (fun depth => rfl)
  apply Meets.after_match? (decide_eq_only _)
  · intro noQuestion
    apply Meets.after_note
    exact .pure ⟨rfl, height_le⟩ rfl
  · intro _ question afterQuestion _ consumes
    have goesOn := consumes.follows
    apply (keeps afterQuestion (goesOn.hasRoom hasRoom)).bind
    intro onTrue afterTrue trueFollows trueAccepts
    apply Meets.after_noted
    apply (Meets.consume _ _).bind
    rintro colon afterColon colonFollows -
    have goesOn := (goesOn.trans trueFollows).trans colonFollows
    apply (keeps afterColon (goesOn.hasRoom hasRoom)).bind
    intro onFalse afterFalse falseFollows falseAccepts
    apply Meets.after_noted
    rw [trueAccepts.measures.height_eq, falseAccepts.measures.height_eq]
    apply (Meets.grow _ _).bind
    rintro - grown grows ⟨height_eq, taller_le⟩
    apply Meets.after_noted
    have measures : Measures (.conditional test onTrue onFalse) grown :=
      .of_grown height_eq taller_le rfl
    have goesOn := (goesOn.trans falseFollows).trans grows
    have shorter : grown.remaining.length < length := by
      have := consumes.length_remaining_lt
      have := trueFollows.length_remaining_le
      have := colonFollows.length_remaining_le
      have := falseFollows.length_remaining_le
      have := grows.length_remaining_le
      omega
    rw [measures.height_eq]
    exact induction _ shorter (goesOn.hasRoom hasRoom) measures.height_le rfl

section Rules

variable (assignKeeps : Production.assign.Keeps room)
  (factorKeeps : Production.factor.Keeps room)
include assignKeeps factorKeeps

theorem keeps_conditional : Production.conditional.Keeps room := by
  intro start hasRoom
  rw [Production.reading, step_conditional]
  apply Meets.succ _ (fun depth => rfl)
  apply (keeps_comparison factorKeeps start hasRoom).bind
  intro test course follows accepts
  apply Meets.after_noted
  rw [accepts.measures.height_eq]
  apply (meets_conditionalFrom assignKeeps (follows.hasRoom hasRoom)
    accepts.measures.height_le).weaken
  intro expression final goesOn measures
  exact ⟨Nat.lt_of_lt_of_le accepts.cursor_lt goesOn.cursor_le, measures⟩

omit assignKeeps factorKeeps in
theorem lift_store_var {target value : Measured} {name : Name}
    (target_eq : target.expression = .var name) :
    Step.lift (store target value) = (do
      let height ← Step.lift (Grammar.grow (max target.height value.height)
        value.expression.span)
      pure ⟨.assign (.var name) value.expression, height⟩) := by
  funext tokens
  simp only [store, target_eq, Step.lift]
  cases Grammar.grow (max target.height value.height) value.expression.span <;>
    rfl

theorem keeps_assignment : Production.assignment.Keeps room := by
  intro start hasRoom
  rw [Production.reading, step_assignment]
  apply Meets.succ _ (fun depth => rfl)
  apply (keeps_conditional assignKeeps factorKeeps start hasRoom).bind
  intro target course follows accepts
  apply Meets.after_noted
  apply Meets.after_match? (decide_eq_only _)
  · intro noSign
    exact .pure accepts rfl
  · intro _ sign afterSign _ consumes
    have goesOn := follows.trans consumes.follows
    apply (assignKeeps afterSign (goesOn.hasRoom hasRoom)).bind
    intro value afterValue valueFollows valueAccepts
    cases target with
    | var name =>
        rw [lift_store_var rfl]
        apply Meets.after_noted
        rw [accepts.measures.height_eq, valueAccepts.measures.height_eq]
        apply (Meets.grow _ _).bind
        rintro - grown grows ⟨height_eq, taller_le⟩
        apply Meets.pure _ rfl
        refine ⟨?_, .of_grown height_eq taller_le rfl⟩
        have := accepts.cursor_lt
        have := consumes.cursor_lt
        have := valueAccepts.cursor_lt
        have := grows.cursor_le
        omega
    | _ => exact .throw _

end Rules

/-! ### Calls and operands -/

theorem lift_ok_bind {Read Read' : Type} (read : Read)
    (next : Read → Step Read') : Step.lift (.ok read) >>= next = next read :=
  rfl

theorem meets_argumentsFrom (keeps : Production.assign.Keeps room)
    {start : Course} {callee : Name} {before : MeasuredAll}
    (hasRoom : start.HasRoom room)
    (height_eq : before.height = Expr.greatestHeight before.expressions) :
    Meets (argumentsFrom · callee before) start
      (argumentsStep (Grammar.assign room) callee before) (fun given _ => given)
      (fun given _ =>
        given.height = Expr.greatestHeight given.expressions) := by
  induction size : start.remaining.length using Nat.strongRecOn
    generalizing start before with
  | _ length induction =>
  rw [argumentsStep_eq]
  by_cases full : before.expressions.length = maximumArity
  · have refused : admitArgument callee before =
        .error (.tooManyArguments callee.span callee.text maximumArity) :=
      if_pos full
    rw [refused]
    exact ((Meets.throw _).congr (fun _ => rfl) fun _ => rfl).succ
      fun depth => if_pos full
  · have admitted : admitArgument callee before = .ok () := if_neg full
    rw [admitted]
    apply Meets.succ _ (fun depth => if_neg full)
    rw [lift_ok_bind]
    apply (keeps start hasRoom).bind
    intro next course follows accepts
    apply Meets.after_noted
    have longer_eq : max before.height course.parser.height =
        Expr.greatestHeight (before.expressions ++ [next]) := by
      rw [Expr.greatestHeight_append, height_eq, accepts.measures.height_eq]
    apply Meets.after_match? (decide_eq_only _)
    · intro _
      exact .pure longer_eq rfl
    · intro _ comma afterComma _ consumes
      have goesOn := follows.trans consumes.follows
      have shorter : afterComma.remaining.length < length := by
        have := follows.length_remaining_le
        have := consumes.length_remaining_lt
        omega
      exact induction _ shorter (goesOn.hasRoom hasRoom) longer_eq rfl

theorem meets_argumentsOf (keeps : Production.assign.Keeps room)
    {start : Course} (callee : Name) (hasRoom : start.HasRoom room) :
    Meets (argumentsOf · callee) start
      (Step.peek .rightParenthesis (pure ⟨[], 0⟩)
        (argumentsStep (Grammar.assign room) callee ⟨[], 0⟩))
      (fun given _ => given)
      (fun given _ =>
        given.height = Expr.greatestHeight given.expressions) := by
  apply Meets.succ _ (fun depth => rfl)
  exact .after_peek (.pure rfl rfl) (meets_argumentsFrom keeps hasRoom rfl)

theorem keeps_call (keeps : Production.assign.Keeps room) :
    Production.call.Keeps room := by
  intro start hasRoom
  rw [Production.reading]
  apply Meets.succ _ (fun depth => rfl)
  apply (Meets.name _).bind
  intro callee afterName nameFollows cursor_lt
  apply (Meets.consume _ _).bind
  intro opening course opens _
  rw [step_call]
  have goesOn := nameFollows.trans opens
  apply (meets_argumentsOf keeps callee (goesOn.hasRoom hasRoom)).bind
  intro given afterArguments argumentsFollows given_eq
  apply (Meets.consume _ _).bind
  intro close afterClose closes _
  rw [given_eq]
  apply (Meets.grow _ _).bind
  rintro - grown grows ⟨height_eq, taller_le⟩
  apply Meets.pure _ rfl
  refine ⟨?_, .of_grown height_eq taller_le rfl⟩
  have := opens.cursor_le
  have := argumentsFollows.cursor_le
  have := closes.cursor_le
  have := grows.cursor_le
  omega

/-- A name with an opening parenthesis after it is read as a call. -/
theorem reading_primary_of_call {token : Token} {rest : List Token}
    (isName : token.kind = .name)
    (opens : nextKind? rest = some .leftParenthesis) :
    Production.primary.reading room (token :: rest) =
      Production.call.reading room (token :: rest) := by
  obtain ⟨opening, later, rfl⟩ : ∃ opening later, rest = opening :: later := by
    cases rest with
    | nil => cases opens
    | cons opening later => exact ⟨opening, later, rfl⟩
  have opening_eq : opening.kind = .leftParenthesis := Option.some.inj opens
  rw [Production.reading, step_primary, operandStep, isName, Production.reading]
  simp only [Step.bind_apply, Step.name, Step.lift, Step.expect_cons, isName,
    if_true, ok_bind, bind_map, Step.branch, only, opening_eq]

/-- Any other name is read as a variable. -/
theorem reading_primary_of_variable {token : Token} {rest : List Token}
    (isName : token.kind = .name)
    (noCall : nextKind? rest ≠ some .leftParenthesis) :
    Production.primary.reading room (token :: rest) = (do
      let name ← Step.name "variable"
      pure (⟨.var name, 1⟩ : Measured) : Step Measured) (token :: rest) := by
  rw [Production.reading, step_primary, operandStep, isName]
  have ended (name : Name) : Step.branch (only .leftParenthesis)
      (pure (⟨.var name, 1⟩ : Measured)) (fun _ _ =>
        step (Grammar.call (Grammar.assign room) name)) rest =
      .ok (⟨.var name, 1⟩, rest) := by
    rw [branch_only, take?_eq_none.mpr noCall]
    rfl
  simp only [Step.bind_apply, Step.name, Step.lift, Step.expect_cons, isName,
    if_true, ok_bind, bind_map, ended]
  rfl

/-- A leaf takes no more tokens and has height one. -/
theorem meets_leaf {start course : Course} {leaf : Expr}
    (cursor_lt : start.cursor < course.cursor) (height_eq : leaf.height = 1) :
    Meets (fun _ => do note 1; Pure.pure leaf) course
      (Pure.pure ⟨leaf, 1⟩) Measured.mk (Accepts start) := by
  apply Meets.after_note
  exact .pure ⟨cursor_lt, height_eq.symm, height_eq ▸ one_le_maximumHeight⟩ rfl

/-- What is left of a negation after its sign. -/
theorem meets_negation (factorKeeps : Production.factor.Keeps room)
    {start course : Course} {sign : Token}
    (hasRoom : course.HasRoom room) (cursor_lt : start.cursor < course.cursor) :
    Meets (fun depth => do
      let product ← run depth (.chain .product)
      grow (← noted) sign.span
      Pure.pure (Expr.binary .minus (.literal 0 sign.span) product)) course (do
      let operand ← step (Grammar.product (Grammar.factor room))
      let height ← Step.lift (Grammar.grow operand.height sign.span)
      Pure.pure ⟨.binary .minus (.literal 0 sign.span) operand.expression,
        height⟩) Measured.mk (Accepts start) := by
  apply (keeps_product factorKeeps course hasRoom).bind
  intro product afterProduct follows accepts
  apply Meets.after_noted
  rw [accepts.measures.height_eq]
  apply (Meets.grow _ _).bind
  rintro - grown grows ⟨height_eq, taller_le⟩
  have whole_eq :
      (Expr.binary .minus (.literal 0 sign.span) product).height =
        product.height + 1 := by
    have := product.height_pos
    rw [Expr.height, Expr.height]
    omega
  apply Meets.pure _ rfl
  refine ⟨?_, .of_grown height_eq taller_le whole_eq⟩
  have := accepts.cursor_lt
  have := grows.cursor_le
  omega

/-- What is left of an expression in parentheses after the first of them. -/
theorem meets_parenthesized (assignKeeps : Production.assign.Keeps room)
    {start course : Course} (hasRoom : course.HasRoom room)
    (cursor_lt : start.cursor < course.cursor) :
    Meets (fun depth => do
      let inner ← run depth .assign
      let _ ← consume .rightParenthesis "')'"
      Pure.pure inner) course (do
      let inner ← step (Grammar.assign room)
      let _ ← Step.expect .rightParenthesis "')'"
      Pure.pure inner) Measured.mk (Accepts start) := by
  apply (assignKeeps course hasRoom).bind
  intro inner afterInner innerFollows accepts
  apply (Meets.consume _ _).bind
  rintro close closed follows ⟨closes, -⟩
  have height_eq : closed.parser.height = inner.height :=
    closes.height_eq.trans accepts.measures.height_eq
  apply Meets.pure
  · refine ⟨?_, height_eq, accepts.measures.height_le⟩
    have := accepts.cursor_lt
    have := closes.cursor_lt
    omega
  · rw [closes.height_eq]

/-- A name is the beginning of a call, or a variable. -/
theorem meets_named (assignKeeps : Production.assign.Keeps room)
    {start : Course} {token : Token} (hasRoom : start.HasRoom room)
    (peeked : start.parser.sequence.peek? = some token)
    (isName : token.kind = .name) :
    Meets (fun depth => do
      let second := (← current).sequence.peekAt? 1
      if second.map Token.kind = some .leftParenthesis then
        run depth .call
      else
        let name ← name "variable"
        note 1
        Pure.pure (Expr.var name)) start (Production.primary.reading room)
      Measured.mk (Accepts start) := by
  have consumes := consumes_advanced peeked
  have second_eq (inMemory : start.InMemory) :
      (start.parser.sequence.peekAt? 1).map Token.kind =
        nextKind? start.advanced.remaining := by
    rw [TokenSequence.peekAt?_one_of_peek? peeked inMemory]
    rfl
  apply Meets.after_current
  by_cases opens : (start.parser.sequence.peekAt? 1).map Token.kind =
      some .leftParenthesis
  · simp only [opens, if_true]
    apply (keeps_call assignKeeps start hasRoom).congr (fun _ => rfl)
    intro inMemory
    rw [consumes.remaining_eq]
    apply reading_primary_of_call isName
    rw [← second_eq inMemory, opens]
  · simp only [opens, if_false]
    have named : Meets (fun _ => do
        let name ← name "variable"
        note 1
        Pure.pure (Expr.var name)) start (do
        let name ← Step.name "variable"
        Pure.pure ⟨.var name, 1⟩) Measured.mk (Accepts start) := by
      apply (Meets.name _).bind
      intro name course follows cursor_lt
      exact meets_leaf cursor_lt rfl
    apply named.congr (fun _ => rfl)
    intro inMemory
    rw [consumes.remaining_eq]
    apply reading_primary_of_variable isName
    rw [← second_eq inMemory]
    exact opens

theorem keeps_primary (assignKeeps : Production.assign.Keeps room)
    (factorKeeps : Production.factor.Keeps room) :
    Production.primary.Keeps room := by
  intro start hasRoom
  apply Meets.succ _ (fun depth => rfl)
  apply Meets.after_peek?
  cases peeked : start.parser.sequence.peek? with
  | none =>
      have ended : start.remaining = [] :=
        TokenSequence.remaining_eq_nil peeked
      apply (Meets.throw _).congr (fun _ => rfl)
      intro _
      rw [ended]
      rfl
  | some token =>
      have reading_eq (rest : List Token) :
          Production.primary.reading room (token :: rest) =
            operandStep (Grammar.assign room) (Grammar.factor room) token
              rest :=
        step_primary ..
      unfold operandStep at reading_eq
      cases kind : token.kind with
      | number =>
          simp only [kind] at reading_eq ⊢
          apply Meets.after_advance peeked reading_eq
          intro course consumes
          exact meets_leaf consumes.cursor_lt rfl
      | leftParenthesis =>
          simp only [kind] at reading_eq ⊢
          apply Meets.after_advance peeked reading_eq
          intro course consumes
          exact meets_parenthesized assignKeeps
            (consumes.follows.hasRoom hasRoom) consumes.cursor_lt
      | minus =>
          simp only [kind] at reading_eq ⊢
          apply Meets.after_advance peeked reading_eq
          intro course consumes
          exact meets_negation factorKeeps (consumes.follows.hasRoom hasRoom)
            consumes.cursor_lt
      | name =>
          simp only [kind]
          exact meets_named assignKeeps hasRoom peeked kind
      | _ =>
          simp only [kind] at reading_eq ⊢
          apply (Meets.throw _).congr (fun _ => rfl)
          intro _
          rw [(consumes_advanced peeked).remaining_eq]
          exact reading_eq _

/-! ### Nesting -/

/-- The course one level deeper. -/
def Course.entered (course : Course) : Course :=
  course.change fun parser => { parser with nesting := parser.nesting + 1 }

/-- The course back on the level of before. -/
def Course.left (course : Course) : Course :=
  course.change fun parser => { parser with nesting := parser.nesting - 1 }

/-- However a production ends, the machine comes back from its level. -/
theorem nested_eq {production : Production} {depth : Nat} {start : Course}
    (notFull : start.parser.nesting ≠ maximumNesting) :
    nested (depth + 1) production start =
      (run depth production start.entered).map fun ended =>
        (ended.1, ended.2.left) := by
  have looked : current start = some (.ok start.parser, start) := rfl
  have entered : enter start = some (.ok (), start.entered) := rfl
  rw [nested]
  apply (bind_of_ok looked).trans
  rw [if_neg notFull]
  apply (bind_of_ok entered).trans
  have attempt_eq : attempt (run depth production) start.entered =
      (run depth production start.entered).map fun ended =>
        (.ok ended.1, ended.2) := by
    change (run depth production start.entered >>= _) = _
    cases run depth production start.entered <;> rfl
  cases ended : run depth production start.entered with
  | none =>
      rw [ended] at attempt_eq
      exact bind_of_none attempt_eq
  | some reached =>
      obtain ⟨outcome, final⟩ := reached
      have left : leave final = some (.ok (), final.left) := rfl
      rw [ended] at attempt_eq
      apply (bind_of_ok attempt_eq).trans
      apply (bind_of_ok left).trans
      cases outcome <;> rfl

theorem meets_nested {production : Production}
    (keeps : production.Keeps room) {start : Course}
    (hasRoom : start.HasRoom (room + 1)) :
    Meets (nested · production) start (production.reading room) Measured.mk
      (Accepts start) := by
  have nesting_eq : start.parser.nesting + (room + 1) = maximumNesting :=
    hasRoom
  have entered_eq : start.entered.parser.nesting = start.parser.nesting + 1 :=
    rfl
  have enteredRoom : start.entered.HasRoom room := by
    unfold Course.HasRoom
    omega
  obtain ⟨depth, outcome, final, ended, follows, accepted, agrees⟩ :=
    keeps start.entered enteredRoom
  have enters : Next start start.entered :=
    next_change ⟨rfl, Nat.le_refl _, id, fun _ =>
      (by omega : start.parser.nesting + 1 ≤ maximumNesting)⟩
  have leaves : Next final final.left :=
    next_change ⟨rfl, Nat.le_refl _, id, fun within =>
      Nat.le_trans (Nat.sub_le _ _) within⟩
  have left_eq : final.left.parser.nesting = start.parser.nesting := by
    have final_eq := follows.nesting_eq
    have : final.left.parser.nesting = final.parser.nesting - 1 := rfl
    omega
  refine ⟨depth + 1, outcome, final.left, ?_,
    ⟨.head enters (follows.changes.tail leaves), left_eq⟩, ?_, agrees⟩
  · intro more le_more
    obtain ⟨less, rfl⟩ := Nat.exists_eq_add_of_le' le_more
    have innerEnded : run (less + depth) production start.entered =
        some (outcome, final) := ended _ (Nat.le_add_left depth less)
    have notFull : start.parser.nesting ≠ maximumNesting := by omega
    exact (nested_eq notFull).trans (congrArg (Option.map _) innerEnded)
  · intro expression isOk
    obtain ⟨cursor_lt, height_eq, height_le⟩ := accepted expression isOk
    exact ⟨cursor_lt, height_eq, height_le⟩

/-- Where the machine has no room, it refuses to go deeper. -/
theorem meets_nested_of_full {production : Production} {start : Course}
    {accept : Expr → Course → Prop} (full : start.HasRoom 0) :
    Meets (nested · production) start (step exhausted) Measured.mk accept := by
  have nesting_eq : start.parser.nesting = maximumNesting := full
  have place_eq : (start.parser.sequence.peek?.map Token.span).getD .unknown =
      nextSpan start.remaining := by
    rw [TokenSequence.peek?_eq_head?, ← Course.remaining]
    cases start.remaining <;> rfl
  apply Meets.succ _ (fun depth => rfl)
  apply Meets.after_current
  simp only [nesting_eq, if_true, place_eq]
  exact (Meets.throw _).congr (fun _ => rfl) fun _ => rfl

theorem keeps_assign_and_factor (room : Nat) :
    Production.assign.Keeps room ∧ Production.factor.Keeps room := by
  induction room with
  | zero =>
      constructor
      all_goals
        intro start full
        rw [Production.reading]
        exact (meets_nested_of_full full).succ fun depth => rfl
  | succ room induction =>
      obtain ⟨assignKeeps, factorKeeps⟩ := induction
      constructor
      · intro start hasRoom
        rw [Production.reading, Grammar.assign]
        exact (meets_nested (keeps_assignment assignKeeps factorKeeps)
          hasRoom).succ fun depth => rfl
      · intro start hasRoom
        rw [Production.reading, Grammar.factor]
        exact (meets_nested (keeps_primary assignKeeps factorKeeps)
          hasRoom).succ fun depth => rfl

/-- Every production keeps its contract, however much room there is. -/
theorem keeps (production : Production) (room : Nat) :
    production.Keeps room := by
  obtain ⟨assignKeeps, factorKeeps⟩ := keeps_assign_and_factor room
  cases production with
  | assign => exact assignKeeps
  | assignment => exact keeps_assignment assignKeeps factorKeeps
  | conditional => exact keeps_conditional assignKeeps factorKeeps
  | chain level =>
      cases level with
      | comparison => exact keeps_comparison factorKeeps
      | sum => exact keeps_sum factorKeeps
      | product => exact keeps_product factorKeeps
  | factor => exact factorKeeps
  | primary => exact keeps_primary assignKeeps factorKeeps
  | call => exact keeps_call assignKeeps

/-- Wherever a production starts, it comes to an end.  If it reads an expression,
it has consumed a token and noted the height of the expression, which is within
its limit.  In any case it is back on the level where it began, and at no moment
was it beyond the limit on nesting, did it have other tokens, or was its cursor
behind an earlier place or past the end.  What it reads is what the rule of the
same name reads. -/
theorem run_keeps_contract (production : Production) (parser : Parser)
    (nesting_le : parser.nesting ≤ maximumNesting) :
    ∃ depth outcome final,
      (∀ more, depth ≤ more →
        run more production parser.begun = some (outcome, final)) ∧
      (∀ expression, outcome = .ok expression →
        parser.sequence.cursor < final.parser.sequence.cursor ∧
        final.parser.height = expression.height ∧
        expression.height ≤ maximumHeight) ∧
      final.parser.nesting = parser.nesting ∧
      (∀ state ∈ final.states,
        state.nesting ≤ maximumNesting ∧
        state.sequence.tokens = parser.sequence.tokens ∧
        (parser.sequence.cursor ≤ parser.sequence.size →
          state.sequence.cursor ≤ state.sequence.size)) ∧
      final.states.Pairwise (fun later earlier =>
        earlier.sequence.cursor ≤ later.sequence.cursor) ∧
      (parser.sequence.size < UInt64.size →
        production.reading (maximumNesting - parser.nesting)
            parser.sequence.remaining =
          outcome.map fun expression =>
            (⟨expression, final.parser.height⟩,
              final.parser.sequence.remaining)) := by
  have hasRoom : parser.begun.HasRoom (maximumNesting - parser.nesting) :=
    Nat.add_sub_cancel' nesting_le
  obtain ⟨depth, outcome, final, ended, follows, accepted, agrees⟩ :=
    keeps production _ parser.begun hasRoom
  obtain ⟨moved, forwards⟩ := moves_of_begun follows.changes
  refine ⟨depth, outcome, final, ended, ?_, follows.nesting_eq, ?_, ?_, agrees⟩
  · intro expression isOk
    obtain ⟨cursor_lt, height_eq, height_le⟩ := accepted expression isOk
    exact ⟨cursor_lt, height_eq, height_le⟩
  · intro state visited
    have moves := moved state visited
    exact ⟨moves.nesting_le nesting_le, moves.tokens_eq, moves.inside⟩
  · exact forwards.imp Moves.cursor_le

/-- One level below the limit a parenthesis is still entered, but nothing inside
it; the machine comes back from that level. -/
theorem run_keeps_contract_at_limit :
    let opening : Token := ⟨.leftParenthesis, "(", .unknown⟩
    let parser : Parser := ⟨.ofList [opening, .ofValue 1], 511, 0⟩
    parser.nesting ≤ maximumNesting ∧
      ∃ depth final,
        (∀ more, depth ≤ more → run more .factor parser.begun =
          some (.error (.tooDeep .unknown 512), final)) ∧
        final.parser.nesting = 511 ∧
        ∀ state ∈ final.states, state.nesting ≤ 512 := by
  intro opening parser
  have nesting_le : parser.nesting ≤ maximumNesting := by decide
  obtain ⟨depth, outcome, final, ended, -, nesting_eq, within, -, agrees⟩ :=
    run_keeps_contract .factor parser nesting_le
  have refused : outcome = .error (.tooDeep .unknown 512) := by
    have read := agrees (by decide)
    cases outcome with
    | error error =>
        cases read
        rfl
    | ok expression => cases read
  rw [refused] at ended
  exact ⟨nesting_le, depth, final, ended, nesting_eq,
    fun state visited => (within state visited).1⟩

end Parser
end Calculator
