import Calculator.Proofs.Grammar.Rule

/-!
# What the rules accept is derivable

Whatever a rule reads has a reading in the grammar, is permitted, and keeps to
the room for nesting and to the greatest height; the height that the rule counts
along is the height of the tree.  The loops carry this for the phrase read so
far.
-/

namespace Calculator
namespace Grammar

/-- The expression at the front of the tokens has a reading that fits the room,
is permitted and has the given height, which is within the limit. -/
structure Understood (category : Category) (room : Nat) (tokens : List Token)
    (expression : Expr) (height : Nat) (rest : List Token) : Prop where
  reads : ∃ entries ≤ room, Reads category tokens expression rest entries
  permitted : expression.Permitted
  height_eq : height = expression.height
  height_le : height ≤ maximumHeight

/-- A phrase may be used as one of another category. -/
theorem Understood.lift {category other : Category} {room room' : Nat}
    {tokens others rest left : List Token} {expression : Expr} {height : Nat}
    (understood : Understood category room tokens expression height rest)
    (reads_lift : ∀ entries ≤ room,
      Reads category tokens expression rest entries →
        ∃ entries' ≤ room', Reads other others expression left entries') :
    Understood other room' others expression height left := by
  obtain ⟨⟨entries, entries_le, reads⟩, permitted, height_eq, height_le⟩ :=
    understood
  exact ⟨reads_lift entries entries_le reads, permitted, height_eq, height_le⟩

/-- Whatever the rule reads is a phrase of the category that has ended. -/
def Sound (category : Category) (room : Nat) (rule : Rule) : Prop :=
  ∀ ⦃tokens parsed⦄, rule tokens = .ok parsed →
    Understood category room tokens parsed.expression parsed.height
      parsed.rest ∧ category.Ends parsed.rest

theorem sound_chainFrom {level : Level} {room : Nat} {operand : Rule}
    (sound : Sound level.operand room operand) {start : List Token}
    {bound : Nat} {left : Expr} {height : Nat} {tokens : List Token}
    {tokens_lt : tokens.length < bound} {parsed : Parsed bound}
    (soFar : Understood (.chain level) room start left height tokens)
    (result : chainFrom level.operator? operand left height tokens tokens_lt =
      .ok parsed) :
    Understood (.chain level) room start parsed.expression parsed.height
        parsed.rest ∧
      (Category.chain level).Ends parsed.rest := by
  induction size : tokens.length using Nat.strongRecOn
    generalizing left height tokens with
  | _ length induction =>
  unfold chainFrom at result
  cases tokens with
  | nil =>
      cases result
      exact ⟨soFar, level.ends_nil⟩
  | cons sign between =>
      simp only at result
      cases found : level.operator? sign.kind with
      | none =>
          simp only [found] at result
          cases result
          exact ⟨soFar, Level.ends_cons.mpr found⟩
      | some operator =>
          simp only [found, bind_eq_ok] at result
          obtain ⟨right, rightRead, taller, grown, result⟩ := result
          obtain ⟨⟨entries, entries_le, reads⟩, permitted, height_eq, -⟩ :=
            soFar
          obtain ⟨⟨⟨rightEntries, rightEntries_le, rightReads⟩, rightPermitted,
            rightHeight_eq, -⟩, ends⟩ := sound rightRead
          obtain ⟨taller_le, rfl⟩ := grow_eq_ok.mp grown
          refine induction right.rest.length ?_ ?_ result rfl
          · have := right.rest_lt
            simp only [List.length_cons] at size
            omega
          · refine ⟨⟨max entries rightEntries, ?_,
              .operation reads (Level.operator?_eq_some_iff.mp found)
                rightReads ends⟩, ?_, ?_, taller_le⟩
            · omega
            · exact (Expr.permitted_binary ..).mpr ⟨permitted, rightPermitted⟩
            · simp only [height_eq, rightHeight_eq, Expr.height]

theorem sound_chain (level : Level) {room : Nat} {operand : Rule}
    (sound : Sound level.operand room operand) :
    Sound (.chain level) room (chain level.operator? operand) := by
  intro tokens parsed result
  obtain ⟨first, firstRead, result⟩ := bind_eq_ok.mp result
  obtain ⟨understood, ends⟩ := sound firstRead
  refine sound_chainFrom sound (understood.lift ?_) result
  intro entries entries_le reads
  exact ⟨entries, entries_le, .operand reads ends⟩

section Levels

variable {room : Nat} {factorRule : Rule}
  (sound : Sound .factor room factorRule)
include sound

theorem sound_product : Sound (.chain .product) room (product factorRule) :=
  sound_chain .product sound

theorem sound_comparison :
    Sound (.chain .comparison) room (comparison factorRule) :=
  sound_chain .comparison (sound_chain .sum (sound_product sound))

end Levels

theorem sound_conditionalFrom {room : Nat} {branch : Rule}
    (sound : Sound .assign room branch) {start : List Token} {bound : Nat}
    {test : Expr} {height : Nat} {tokens : List Token}
    {tokens_lt : tokens.length < bound} {parsed : Parsed bound}
    (soFar : Understood .conditional room start test height tokens)
    (result : conditionalFrom branch test height tokens tokens_lt =
      .ok parsed) :
    Understood .conditional room start parsed.expression parsed.height
        parsed.rest ∧
      Category.conditional.Ends parsed.rest := by
  induction size : tokens.length using Nat.strongRecOn
    generalizing test height tokens with
  | _ length induction =>
  unfold conditionalFrom at result
  cases asked : take? .question tokens with
  | none =>
      simp only [asked] at result
      cases result
      exact ⟨soFar, take?_eq_none.mp asked⟩
  | some question =>
      simp only [asked, bind_eq_ok] at result
      obtain ⟨onTrue, trueRead, colon, separated, onFalse, falseRead, taller,
        grown, result⟩ := result
      obtain ⟨⟨entries, entries_le, reads⟩, permitted, height_eq, -⟩ := soFar
      obtain ⟨⟨⟨trueEntries, trueEntries_le, trueReads⟩, truePermitted,
        trueHeight_eq, -⟩, -⟩ := sound trueRead
      obtain ⟨⟨⟨falseEntries, falseEntries_le, falseReads⟩, falsePermitted,
        falseHeight_eq, -⟩, -⟩ := sound falseRead
      obtain ⟨tokens_eq, asks⟩ := eq_cons_of_take? asked
      obtain ⟨colon_eq, separates⟩ := eq_cons_of_expect separated
      obtain ⟨taller_le, rfl⟩ := grow_eq_ok.mp grown
      rw [tokens_eq] at reads
      rw [colon_eq] at trueReads
      refine induction onFalse.rest.length ?_ ?_ result rfl
      · have := question.rest_lt
        have := onTrue.rest_lt
        have := colon.rest_lt
        have := onFalse.rest_lt
        omega
      · refine ⟨⟨max (max entries trueEntries) falseEntries, by omega,
          .branches reads asks trueReads separates falseReads⟩, ?_, ?_,
          taller_le⟩
        · exact (Expr.permitted_conditional ..).mpr
            ⟨permitted, truePermitted, falsePermitted⟩
        · simp only [height_eq, trueHeight_eq, falseHeight_eq, Expr.height]

theorem sound_conditional {room : Nat} {assignRule factorRule : Rule}
    (assignSound : Sound .assign room assignRule)
    (factorSound : Sound .factor room factorRule) :
    Sound .conditional room (conditional assignRule factorRule) := by
  intro tokens parsed result
  obtain ⟨test, testRead, result⟩ := bind_eq_ok.mp result
  obtain ⟨understood, ends⟩ := sound_comparison factorSound testRead
  refine sound_conditionalFrom assignSound (understood.lift ?_) result
  intro entries entries_le reads
  exact ⟨entries, entries_le, .test reads ends⟩

theorem sound_assignment {room : Nat} {assignRule factorRule : Rule}
    (assignSound : Sound .assign room assignRule)
    (factorSound : Sound .factor room factorRule) :
    Sound .assign (room + 1) (assignment assignRule factorRule) := by
  intro tokens parsed result
  obtain ⟨target, targetRead, result⟩ := bind_eq_ok.mp result
  obtain ⟨understood, ends⟩ :=
    sound_conditional assignSound factorSound targetRead
  cases signed : take? .equal target.rest with
  | none =>
      simp only [signed] at result
      cases result
      refine ⟨understood.lift ?_, trivial⟩
      intro entries entries_le reads
      exact ⟨entries + 1, Nat.succ_le_succ entries_le,
        .value reads ends (take?_eq_none.mp signed)⟩
  | some sign =>
      simp only [signed, bind_eq_ok] at result
      obtain ⟨value, valueRead, result⟩ := result
      obtain ⟨⟨entries, entries_le, reads⟩, -, height_eq, -⟩ := understood
      obtain ⟨⟨⟨valueEntries, valueEntries_le, valueReads⟩, valuePermitted,
        valueHeight_eq, -⟩, -⟩ := assignSound valueRead
      obtain ⟨rest_eq, isSign⟩ := eq_cons_of_take? signed
      rw [rest_eq] at reads
      cases target_eq : target.expression with
      | var name =>
          simp only [target_eq, bind_eq_ok] at result
          obtain ⟨taller, grown, result⟩ := result
          cases result
          obtain ⟨taller_le, rfl⟩ := grow_eq_ok.mp grown
          rw [target_eq] at reads height_eq
          refine ⟨⟨⟨max entries valueEntries + 1, by omega,
            .store reads isSign valueReads⟩, ?_, ?_, taller_le⟩, trivial⟩
          · exact (Expr.permitted_assign ..).mpr ⟨⟨name, rfl⟩, valuePermitted⟩
          · simp only [height_eq, valueHeight_eq, Expr.height]
      | _ => simp [target_eq] at result

/-- The expressions at the front of the tokens are read as the arguments of a
call. -/
structure UnderstoodArguments (room : Nat) (tokens : List Token)
    (arguments : List Expr) (height : Nat) (rest : List Token) : Prop where
  reads : ∃ entries ≤ room, ReadsArguments tokens arguments rest entries
  permitted : ∀ argument ∈ arguments, argument.Permitted
  length_le : arguments.length ≤ maximumArity
  height_eq : height = Expr.greatestHeight arguments

/-- Whatever argument comes next, it goes on with the arguments so far. -/
def Continues (room : Nat) (start : List Token) (before : List Expr)
    (tokens : List Token) : Prop :=
  ∀ ⦃argument rest entries⦄, entries ≤ room →
    Reads .assign tokens argument rest entries →
      ∃ entries ≤ room, ReadsArguments start (before ++ [argument]) rest entries

theorem sound_argumentsFrom {room : Nat} {argument : Rule}
    (sound : Sound .assign room argument) {callee : Name} {start : List Token}
    {bound : Nat} {before : List Expr} {height : Nat} {tokens : List Token}
    {tokens_lt : tokens.length < bound} {parsed : ParsedArguments bound}
    (continues : Continues room start before tokens)
    (permitted : ∀ argument ∈ before, argument.Permitted)
    (length_le : before.length ≤ maximumArity)
    (height_eq : height = Expr.greatestHeight before)
    (result : argumentsFrom argument callee before height tokens tokens_lt =
      .ok parsed) :
    UnderstoodArguments room start parsed.expressions parsed.height
      parsed.rest := by
  induction size : tokens.length using Nat.strongRecOn
    generalizing before height tokens with
  | _ length induction =>
  unfold argumentsFrom at result
  by_cases full : before.length = maximumArity
  · simp [full] at result
  simp only [full, if_false, bind_eq_ok] at result
  obtain ⟨next, nextRead, result⟩ := result
  obtain ⟨⟨⟨nextEntries, nextEntries_le, nextReads⟩, nextPermitted,
    nextHeight_eq, -⟩, -⟩ := sound nextRead
  have permitted' : ∀ argument ∈ before ++ [next.expression],
      argument.Permitted := by
    intro argument member
    rcases List.mem_append.mp member with earlier | last
    · exact permitted argument earlier
    · exact List.mem_singleton.mp last ▸ nextPermitted
  have length_le' : (before ++ [next.expression]).length ≤ maximumArity := by
    simp only [List.length_append, List.length_singleton]
    omega
  have height_eq' : max height next.height =
      Expr.greatestHeight (before ++ [next.expression]) := by
    rw [Expr.greatestHeight_append, height_eq, nextHeight_eq]
  have reads := continues nextEntries_le nextReads
  cases separated : take? .comma next.rest with
  | none =>
      simp only [separated] at result
      cases result
      exact ⟨reads, permitted', length_le', height_eq'⟩
  | some comma =>
      simp only [separated] at result
      obtain ⟨rest_eq, separates⟩ := eq_cons_of_take? separated
      refine induction comma.rest.length ?_ ?_ permitted' length_le' height_eq'
        result rfl
      · have := next.rest_lt
        have := comma.rest_lt
        omega
      · obtain ⟨entries, entries_le, readsBefore⟩ := reads
        rw [rest_eq] at readsBefore
        intro argument rest argumentEntries argumentEntries_le argumentReads
        exact ⟨max entries argumentEntries, by omega,
          .more readsBefore separates argumentReads⟩

theorem sound_call {room : Nat} {assignRule : Rule}
    (sound : Sound .assign room assignRule) {name opening : Token}
    (isName : IsName name) (opens : opening.kind = .leftParenthesis)
    {tokens : List Token} {parsed : Parsed tokens.length}
    (result : call assignRule name.asName tokens = .ok parsed) :
    Understood .factor (room + 1) (name :: opening :: tokens)
      parsed.expression parsed.height parsed.rest := by
  obtain ⟨given, givenRead, result⟩ := bind_eq_ok.mp result
  obtain ⟨close, closed, result⟩ := bind_eq_ok.mp result
  obtain ⟨height, grown, result⟩ := bind_eq_ok.mp result
  obtain ⟨height_le, rfl⟩ := grow_eq_ok.mp grown
  obtain ⟨rest_eq, closes⟩ := eq_cons_of_expect closed
  cases result
  unfold arguments at givenRead
  cases ended : take? .rightParenthesis tokens with
  | some closing =>
      simp only [ended] at givenRead
      cases givenRead
      have reads : Reads .factor
          (name :: opening :: close.token :: close.rest)
          (.call name.asName [] close.token.span) close.rest 1 :=
        .emptyCall isName opens closes
      rw [← rest_eq] at reads
      refine ⟨⟨1, by omega, reads⟩, ?_, ?_, height_le⟩
      · simp
      · simp [Expr.height, Expr.greatestHeight]
  | none =>
      simp only [ended] at givenRead
      obtain ⟨⟨entries, entries_le, reads⟩, permitted, length_le, height_eq⟩ :=
        sound_argumentsFrom sound
          (fun argument rest entries entries_le reads =>
            ⟨entries, entries_le, .one reads⟩)
          (by simp) (by simp) rfl givenRead
      rw [rest_eq] at reads
      refine ⟨⟨entries + 1, by omega, .call isName opens reads closes⟩, ?_, ?_,
        height_le⟩
      · exact (Expr.permitted_call ..).mpr ⟨length_le, permitted⟩
      · simp only [height_eq, Expr.height]

theorem sound_primary {room : Nat} {assignRule factorRule : Rule}
    (assignSound : Sound .assign room assignRule)
    (factorSound : Sound .factor room factorRule) :
    Sound .factor (room + 1) (primary assignRule factorRule) := by
  intro tokens parsed result
  refine ⟨?_, trivial⟩
  cases tokens with
  | nil => simp [primary] at result
  | cons token rest =>
  cases kind : token.kind with
  | number =>
      simp only [primary, kind, Token.value_eq_numeral] at result
      cases result
      exact ⟨⟨1, by omega, .number kind⟩, by simp, rfl, one_le_maximumHeight⟩
  | leftParenthesis =>
      simp only [primary, kind, bind_eq_ok] at result
      obtain ⟨inner, innerRead, close, closed, result⟩ := result
      cases result
      obtain ⟨understood, -⟩ := assignSound innerRead
      obtain ⟨rest_eq, closes⟩ := eq_cons_of_expect closed
      apply understood.lift
      intro entries entries_le reads
      rw [rest_eq] at reads
      exact ⟨entries + 1, Nat.succ_le_succ entries_le,
        .parentheses kind reads closes⟩
  | minus =>
      simp only [primary, kind, bind_eq_ok] at result
      obtain ⟨operand, operandRead, height, grown, result⟩ := result
      cases result
      obtain ⟨⟨⟨entries, entries_le, reads⟩, permitted, height_eq, -⟩, ends⟩ :=
        sound_product factorSound operandRead
      obtain ⟨height_le, rfl⟩ := grow_eq_ok.mp grown
      refine ⟨⟨entries + 1, by omega, .negation kind reads ends⟩, ?_, ?_,
        height_le⟩
      · exact (Expr.permitted_binary ..).mpr
          ⟨Expr.permitted_literal .., permitted⟩
      · have positive := operand.expression.height_pos
        simp only [height_eq, Expr.height]
        omega
  | name =>
      simp only [primary, kind, bind_eq_ok] at result
      obtain ⟨name, named, result⟩ := result
      obtain ⟨notKeyword, rfl⟩ := nameOf_eq_ok.mp named
      have isName : IsName token := ⟨kind, notKeyword⟩
      cases opened : take? .leftParenthesis rest with
      | none =>
          simp only [opened] at result
          cases result
          exact ⟨⟨1, by omega, .name isName (take?_eq_none.mp opened)⟩,
            by simp, rfl, one_le_maximumHeight⟩
      | some opening =>
          simp only [opened, bind_eq_ok] at result
          obtain ⟨called, calledRead, result⟩ := result
          cases result
          obtain ⟨rest_eq, opens⟩ := eq_cons_of_take? opened
          have understood := sound_call assignSound isName opens calledRead
          rw [← rest_eq] at understood
          exact understood
  | _ => simp [primary, kind] at result

mutual

theorem sound_assign (room : Nat) : Sound .assign room (assign room) := by
  cases room with
  | zero =>
      intro tokens parsed result
      simp [assign, exhausted] at result
  | succ room =>
      rw [assign]
      exact sound_assignment (sound_assign room) (sound_factor room)

theorem sound_factor (room : Nat) : Sound .factor room (factor room) := by
  cases room with
  | zero =>
      intro tokens parsed result
      simp [factor, exhausted] at result
  | succ room =>
      rw [factor]
      exact sound_primary (sound_assign room) (sound_factor room)

end

end Grammar
end Calculator
