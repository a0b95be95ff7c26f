import Calculator.Proofs.Grammar.Completeness
import Calculator.Proofs.Grammar.Soundness

/-!
# The requests that are accepted

A request is accepted exactly when the grammar derives it, its tree is permitted
and keeps to both limits on depth, and its parameters are distinct and not too
many.  The statement that is read is the one of that derivation.
-/

namespace Calculator
namespace Statement

/-- The expression of a request, or the one that the function yields. -/
def body : Statement → Expr
  | .expression value => value
  | .definition function => function.body

/-- The parameters that a request declares. -/
def parameterNames : Statement → List String
  | .expression _ => []
  | .definition function => function.parameterNames

end Statement

namespace Grammar

/-- The statement has a derivation from the tokens that keeps to all limits. -/
structure Admits (tokens : List Token) (statement : Statement) : Prop where
  derives : ∃ entries ≤ maximumNesting, Derives tokens statement entries
  height_le : statement.body.height ≤ maximumHeight
  permitted : statement.body.Permitted
  distinct : statement.parameterNames.Nodup
  few : statement.parameterNames.length ≤ maximumArity

theorem reads_of_expression {tokens : List Token}
    {parsed : Parsed tokens.length}
    (result : expression tokens = .ok parsed) :
    (∃ entries ≤ maximumNesting,
      Reads .assign tokens parsed.expression parsed.rest entries) ∧
      parsed.expression.Permitted ∧
      parsed.expression.height ≤ maximumHeight := by
  obtain ⟨⟨reads, permitted, height_eq, height_le⟩, -⟩ :=
    sound_assign maximumNesting result
  exact ⟨reads, permitted, height_eq ▸ height_le⟩

theorem settles_expression {tokens rest : List Token} {value : Expr}
    {entries : Nat} (reads : Reads .assign tokens value rest entries)
    (permitted : value.Permitted) :
    Settles (Fits maximumNesting entries value) (expression tokens)
      (.ok ⟨value, value.height, rest, reads.rest_lt⟩) :=
  complete_assign maximumNesting reads trivial permitted

theorem expression_of_reads {tokens rest : List Token} {value : Expr}
    {entries : Nat} (reads : Reads .assign tokens value rest entries)
    (permitted : value.Permitted) (entries_le : entries ≤ maximumNesting)
    (height_le : value.height ≤ maximumHeight) :
    expression tokens = .ok ⟨value, value.height, rest, reads.rest_lt⟩ := by
  rcases settles_expression reads permitted with ⟨-, result⟩ | ⟨unfit, -⟩
  · exact result
  · exact absurd ⟨entries_le, height_le⟩ unfit

/-! ### Parameters -/

theorem any_eq_true_iff {before : List Name} {text : String} :
    before.any (·.text = text) = true ↔ text ∈ before.map Name.text := by
  simp only [List.any_eq_true, decide_eq_true_eq, List.mem_map]

theorem sound_parametersFrom {function : Name} {before names : List Name}
    {tokens rest : List Token} (distinct : (before.map Name.text).Nodup)
    (few : before.length ≤ maximumArity)
    (result : parametersFrom function before tokens = .ok (names, rest)) :
    (∃ more, names = before ++ more ∧ ReadsNames tokens more rest) ∧
      (names.map Name.text).Nodup ∧ names.length ≤ maximumArity := by
  induction size : tokens.length using Nat.strongRecOn
    generalizing before tokens with
  | _ length induction =>
  rw [parametersFrom] at result
  obtain ⟨next, expected, result⟩ := bind_eq_ok.mp result
  obtain ⟨tokens_eq, kind⟩ := eq_cons_of_expect expected
  obtain ⟨parameter, named, result⟩ := bind_eq_ok.mp result
  obtain ⟨notKeyword, rfl⟩ := nameOf_eq_ok.mp named
  have isName : IsName next.token := ⟨kind, notKeyword⟩
  by_cases declared : before.any (·.text = next.token.asName.text) = true
  · simp [declared] at result
  by_cases full : before.length = maximumArity
  · simp [declared, full] at result
  simp only [declared, full, if_false] at result
  have distinct' : ((before ++ [next.token.asName]).map Name.text).Nodup := by
    rw [List.map_append, List.nodup_append]
    refine ⟨distinct, by simp, ?_⟩
    intro text earlier other last same
    simp only [List.map_cons, List.map_nil, List.mem_singleton] at last
    rw [same, last] at earlier
    exact declared (any_eq_true_iff.mpr earlier)
  have few' : (before ++ [next.token.asName]).length ≤ maximumArity := by
    simp only [List.length_append, List.length_singleton]
    omega
  cases separated : take? .comma next.rest with
  | none =>
      simp only [separated] at result
      cases result
      have reads : ReadsNames (next.token :: next.rest) [next.token.asName]
          next.rest :=
        .last isName (take?_eq_none.mp separated)
      rw [← tokens_eq] at reads
      exact ⟨⟨[next.token.asName], rfl, reads⟩, distinct', few'⟩
  | some comma =>
      simp only [separated] at result
      obtain ⟨rest_eq, separates⟩ := eq_cons_of_take? separated
      have shorter : comma.rest.length < length := by
        have := next.rest_lt
        have := comma.rest_lt
        omega
      obtain ⟨⟨more, names_eq, reads⟩, bounds⟩ :=
        induction _ shorter distinct' few' result rfl
      have longer : ReadsNames (next.token :: comma.token :: comma.rest)
          (next.token.asName :: more) rest :=
        .more isName separates reads
      rw [← rest_eq, ← tokens_eq] at longer
      refine ⟨⟨next.token.asName :: more, ?_, longer⟩, bounds⟩
      rw [names_eq, List.append_assoc, List.singleton_append]

theorem not_declared {before names : List Name} {name : Name}
    (distinct : ((before ++ name :: names).map Name.text).Nodup) :
    ¬before.any (·.text = name.text) = true := by
  intro declared
  have earlier := any_eq_true_iff.mp declared
  rw [List.map_append, List.nodup_append] at distinct
  exact distinct.2.2 _ earlier _ (by simp) rfl

theorem parametersFrom_of_reads (function : Name) {tokens rest : List Token}
    {names : List Name} (reads : ReadsNames tokens names rest)
    {before : List Name} (distinct : ((before ++ names).map Name.text).Nodup)
    (few : (before ++ names).length ≤ maximumArity) :
    parametersFrom function before tokens = .ok (before ++ names, rest) := by
  induction reads generalizing before with
  | @last token rest isName noComma =>
      have fresh := not_declared distinct
      have notFull : before.length ≠ maximumArity := by
        simp only [List.length_append, List.length_singleton] at few
        omega
      rw [parametersFrom]
      simp only [expect_cons _ _ isName.kind, nameOf_of_isName isName, ok_bind,
        fresh, notFull, take?_eq_none.mpr noComma, if_false]
      rfl
  | @more token comma tokens names rest isName separates reads induction =>
      have fresh := not_declared distinct
      have notFull : before.length ≠ maximumArity := by
        simp only [List.length_append, List.length_cons] at few
        omega
      have assoc : before ++ token.asName :: names =
          (before ++ [token.asName]) ++ names := by
        simp
      rw [assoc] at distinct few ⊢
      rw [parametersFrom]
      simp only [expect_cons _ _ isName.kind, nameOf_of_isName isName, ok_bind,
        fresh, notFull, take?_cons _ separates, if_false]
      exact induction distinct few

theorem sound_parameters {function : Name} {names : List Name}
    {tokens rest : List Token}
    (result : parameters function tokens = .ok (names, rest)) :
    ReadsParameters tokens names rest ∧ (names.map Name.text).Nodup ∧
      names.length ≤ maximumArity := by
  rw [parameters] at result
  cases closed : take? .rightParenthesis tokens with
  | some closing =>
      simp only [closed] at result
      cases result
      obtain ⟨tokens_eq, closes⟩ := eq_cons_of_take? closed
      have nextKind : nextKind? tokens = some .rightParenthesis := by
        rw [tokens_eq, nextKind?_cons, closes]
      exact ⟨.none nextKind, by simp, by simp⟩
  | none =>
      simp only [closed] at result
      obtain ⟨⟨more, rfl, reads⟩, bounds⟩ :=
        sound_parametersFrom (by simp) (by simp) result
      exact ⟨.some reads, bounds⟩

theorem parameters_of_reads (function : Name) {tokens rest : List Token}
    {names : List Name} (reads : ReadsParameters tokens names rest)
    (distinct : (names.map Name.text).Nodup)
    (few : names.length ≤ maximumArity) :
    parameters function tokens = .ok (names, rest) := by
  rw [parameters]
  cases reads with
  | none closes =>
      cases tokens with
      | nil => simp at closes
      | cons token rest =>
          rw [nextKind?_cons, Option.some.injEq] at closes
          simp only [take?_cons _ closes]
  | some reads =>
      have notClosed : take? .rightParenthesis tokens = none := by
        apply take?_eq_none.mpr
        cases reads <;> simp [‹IsName _›.kind]
      simp only [notClosed]
      exact parametersFrom_of_reads function reads distinct few

/-! ### Requests -/

theorem admits_of_definition {keyword : Token} {tokens : List Token}
    {function : FunctionDefinition}
    (isKeyword : IsKeyword keyword)
    (result : definition tokens = .ok (function, [])) :
    Admits (keyword :: tokens) (.definition function) := by
  obtain ⟨⟨name, afterName, _⟩, nameRead, result⟩ := bind_eq_ok.mp result
  obtain ⟨rfl, kind⟩ := eq_cons_of_expect nameRead
  obtain ⟨_, named, result⟩ := bind_eq_ok.mp result
  obtain ⟨notKeyword, rfl⟩ := nameOf_eq_ok.mp named
  obtain ⟨⟨opening, afterOpening, _⟩, openingRead, result⟩ :=
    bind_eq_ok.mp result
  obtain ⟨rfl, opens⟩ := eq_cons_of_expect openingRead
  obtain ⟨⟨names, afterNames⟩, parametersRead, result⟩ := bind_eq_ok.mp result
  obtain ⟨parametersReads, distinct, few⟩ := sound_parameters parametersRead
  obtain ⟨⟨closing, afterClosing, _⟩, closingRead, result⟩ :=
    bind_eq_ok.mp result
  obtain ⟨rfl, closes⟩ := eq_cons_of_expect closingRead
  obtain ⟨⟨sign, afterSign, _⟩, signRead, result⟩ := bind_eq_ok.mp result
  obtain ⟨rfl, isSign⟩ := eq_cons_of_expect signRead
  obtain ⟨⟨body, height, rest, _⟩, bodyRead, result⟩ := bind_eq_ok.mp result
  obtain ⟨⟨entries, entries_le, reads⟩, permitted, height_le⟩ :=
    reads_of_expression bodyRead
  cases result
  exact
    { derives := ⟨entries, entries_le, .definition isKeyword ⟨kind, notKeyword⟩
        opens parametersReads closes isSign reads⟩
      height_le
      permitted
      distinct
      few := by simpa [Statement.parameterNames,
        FunctionDefinition.parameterNames] using few }

theorem admits_of_parse {tokens : List Token} {statement : Statement}
    (result : Statement.parse tokens = .ok statement) :
    Admits tokens statement := by
  obtain ⟨⟨read, rest⟩, statementRead, result⟩ := bind_eq_ok.mp result
  cases rest with
  | cons token rest => simp at result
  | nil =>
  cases result
  cases tokens with
  | nil =>
      obtain ⟨value, valueRead, result⟩ := bind_eq_ok.mp statementRead
      obtain ⟨⟨_, _, reads⟩, -⟩ := reads_of_expression valueRead
      cases reads.begins
  | cons token rest =>
      rw [Grammar.statement] at statementRead
      by_cases isKeyword : token.isDefinitionKeyword = true
      · simp only [isKeyword, if_true] at statementRead
        obtain ⟨⟨function, rest⟩, functionRead, result⟩ :=
          bind_eq_ok.mp statementRead
        cases result
        exact admits_of_definition (isDefinitionKeyword_iff.mp isKeyword)
          functionRead
      · simp only [isKeyword] at statementRead
        obtain ⟨⟨value, height, rest, _⟩, valueRead, result⟩ :=
          bind_eq_ok.mp statementRead
        obtain ⟨⟨entries, entries_le, reads⟩, permitted, height_le⟩ :=
          reads_of_expression valueRead
        cases result
        exact ⟨⟨entries, entries_le, .expression reads⟩, height_le, permitted,
          .nil, Nat.zero_le _⟩

/-- A derivation of an expression settles the outcome of the request. -/
theorem settles_parse {tokens : List Token} {value : Expr} {entries : Nat}
    (reads : Reads .assign tokens value [] entries)
    (permitted : value.Permitted) :
    Settles (Fits maximumNesting entries value) (Statement.parse tokens)
      (.ok (.expression value)) := by
  have settled := settles_expression reads permitted
  obtain ⟨token, rest, rfl⟩ : ∃ token rest, tokens = token :: rest := by
    cases reads.begins <;> exact ⟨_, _, rfl⟩
  have notKeyword := reads.begins.head_not_keyword
  have statement_eq : Grammar.statement (token :: rest) =
      (expression (token :: rest) >>= fun parsed =>
        .ok (.expression parsed.expression, parsed.rest)) := by
    rw [Grammar.statement]
    simp only [notKeyword]
    rfl
  have readStatement : Settles (Fits maximumNesting entries value)
      (Grammar.statement (token :: rest)) (.ok (.expression value, [])) := by
    rw [statement_eq]
    exact (settled.bind (.of_eq trivial rfl)).congr (and_true _)
  exact (readStatement.bind (.of_eq trivial rfl)).congr (and_true _)

theorem parse_of_admits {tokens : List Token} {statement : Statement}
    (admits : Admits tokens statement) :
    Statement.parse tokens = .ok statement := by
  obtain ⟨⟨entries, entries_le, derives⟩, height_le, permitted, distinct,
    few⟩ := admits
  cases derives with
  | expression reads =>
      rcases settles_parse reads permitted with ⟨-, result⟩ | ⟨unfit, -⟩
      · exact result
      · exact absurd ⟨entries_le, height_le⟩ unfit
  | @definition _ name _ _ _ _ _ _ _ _ isKeyword isName opens readsParameters
      closes isSign readsBody =>
      have body := expression_of_reads readsBody permitted entries_le height_le
      have given := parameters_of_reads name.asName readsParameters distinct
        (by simpa [Statement.parameterNames,
          FunctionDefinition.parameterNames] using few)
      rw [Statement.parse, Grammar.statement]
      simp only [isDefinitionKeyword_iff.mpr isKeyword, if_true, definition,
        expect_cons _ _ isName.kind, nameOf_of_isName isName,
        expect_cons _ _ opens, given, expect_cons _ _ closes,
        expect_cons _ _ isSign, body, ok_bind]
      rfl

/-- A request is accepted exactly when the grammar admits it, as the statement
of its derivation, and refused with an error exactly when it admits no
statement. -/
theorem parse_eq_ok_iff_admits (sequence : TokenSequence) :
    (∀ statement, sequence.parse = .ok statement ↔
      Admits sequence.remaining statement) ∧
    ((∃ error, sequence.parse = .error error) ↔
      ∀ statement, ¬Admits sequence.remaining statement) := by
  refine ⟨fun statement => ⟨admits_of_parse, parse_of_admits⟩, ?_, ?_⟩
  · rintro ⟨error, refused⟩ statement admits
    have accepted : sequence.parse = .ok statement := parse_of_admits admits
    rw [refused] at accepted
    cases accepted
  · intro refused
    cases result : sequence.parse with
    | error error => exact ⟨error, rfl⟩
    | ok statement => exact absurd (admits_of_parse result) (refused statement)

end Grammar
end Calculator
