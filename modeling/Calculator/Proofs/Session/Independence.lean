import Calculator.Proofs.Evaluator.Lockstep
import Calculator.Proofs.Session.Requests

/-!
# Requests that do not depend on a definition

Functions are found by name when they are called, so a definition matters to
every request from which its name is reached.  It does not matter to any other:
such a request may as well come before the definition.
-/

namespace Calculator

/-- A statement neither defines a function of the given name nor reaches it. -/
def Statement.Avoids (functions : FunctionTable) (name : String) :
    Statement → Prop
  | .definition function => function.name.text ≠ name
  | .expression value => ¬functions.Reaches value name

namespace Session

variable {session : Session} {text : String} {function : FunctionDefinition}

/-- A statement that avoids a function does the same after its definition. -/
theorem execute_define {statement : Statement}
    (avoids : statement.Avoids session.functions function.name.text) :
    ((session.define function).execute statement).1 =
        (session.execute statement).1 ∧
      ((session.define function).execute statement).2 =
        (session.execute statement).2.define function := by
  cases statement with
  | definition other =>
      refine ⟨rfl, ?_⟩
      simp only [execute, define, FunctionTable.define_comm _ avoids]
  | expression expression =>
      have same : ∀ name, session.functions.Reaches expression name →
          (session.functions.define function).find? name =
            session.functions.find? name := by
        intro name reaches
        rw [FunctionTable.find?_define, if_neg]
        rintro rfl
        exact avoids reaches
      obtain ⟨outcome_eq, environment_eq⟩ := Evaluator.evaluate_inStep
        (Evaluator.fresh session.functions session.limits)
        (Environment.respected_eq expression) same
        (rfl : session.environment = session.environment)
      simp only [Evaluator.fresh] at outcome_eq environment_eq
      simp only [execute, define, ← outcome_eq, ← environment_eq]
      split
      · exact ⟨rfl, rfl⟩
      · exact ⟨rfl, rfl⟩

/-- A request that avoids a function has the same answer after its definition.
-/
theorem evaluate_define
    (avoids : ∀ statement, session.read text = .ok statement →
      statement.Avoids session.functions function.name.text) :
    ((session.define function).evaluate text).1 = (session.evaluate text).1 ∧
      ((session.define function).evaluate text).2 =
        (session.evaluate text).2.define function := by
  have read_eq : (session.define function).read text = session.read text :=
    read_congr (previous_define session function) text
  by_cases granted : session.granted = true
  · have granted' : (session.define function).granted = true := by
      rw [granted_define]
      exact granted
    cases statement_eq : session.read text with
    | error error =>
        rw [statement_eq] at read_eq
        simp only [evaluate, granted, granted', if_true, read_eq,
          statement_eq, and_self]
    | ok statement =>
        obtain ⟨answer_eq, after_eq⟩ :=
          execute_define (avoids statement statement_eq)
        rw [evaluate_eq_execute granted statement_eq,
          evaluate_eq_execute granted' (read_eq.trans statement_eq),
          answer_eq, after_eq]
        exact ⟨rfl, rfl⟩
  · have ungranted : ¬(session.define function).granted = true := by
      rw [granted_define]
      exact granted
    rw [evaluate_of_not_granted session granted,
      evaluate_of_not_granted _ ungranted, limits_define]
    exact ⟨rfl, rfl⟩

/-- The definition of a function and a request that avoids it have the same
answers in either order, and leave the same session. -/
theorem evaluate_definition_comm {definition request : String}
    (defines : session.read definition = .ok (.definition function))
    (avoids : ∀ statement, session.read request = .ok statement →
      statement.Avoids session.functions function.name.text) :
    (session.evaluate definition).1 =
        ((session.evaluate request).2.evaluate definition).1 ∧
      ((session.evaluate definition).2.evaluate request).1 =
        (session.evaluate request).1 ∧
      ((session.evaluate definition).2.evaluate request).2 =
        ((session.evaluate request).2.evaluate definition).2 := by
  by_cases granted : session.granted = true
  · have granted' : (session.evaluate request).2.granted = true := by
      rw [granted_evaluate]
      exact granted
    obtain ⟨answer_eq, after_eq⟩ := evaluate_define avoids
    rw [evaluate_definition granted defines,
      evaluate_definition granted' (read_eq_definition defines _)]
    exact ⟨rfl, answer_eq, after_eq⟩
  · -- Without a stack, both requests are refused in either order.
    have refuses := evaluate_of_not_granted session granted
    simp only [refuses, and_self]

set_option maxRecDepth 10000 in
/-- Defining a function by a call of `down` commutes with a call of `down`,
which calls itself. -/
theorem evaluate_definition_comm_countdown :
    let session : Session :=
      { functions := FunctionTable.empty.define
          ⟨⟨"down", .unknown⟩, [⟨"n", .unknown⟩],
            .conditional (.var ⟨"n", .unknown⟩)
              (.call ⟨"down", .unknown⟩
                [.binary .minus (.var ⟨"n", .unknown⟩) (.literal 1 .unknown)]
                .unknown)
              (.var ⟨"n", .unknown⟩)⟩ }
    let definition := "deffn f(a)=down(a)"
    let request := "y=down(3)"
    (session.evaluate definition).1 =
        ((session.evaluate request).2.evaluate definition).1 ∧
      ((session.evaluate definition).2.evaluate request).1 =
        (session.evaluate request).1 ∧
      ((session.evaluate definition).2.evaluate request).2 =
        ((session.evaluate request).2.evaluate definition).2 := by
  intro session definition request
  have scannedDefinition : Token.scan 1 definition =
      .ok [⟨.name, "deffn", .columns 1 1 5⟩, ⟨.name, "f", .columns 1 7 7⟩,
        ⟨.leftParenthesis, "(", .columns 1 8 8⟩,
        ⟨.name, "a", .columns 1 9 9⟩,
        ⟨.rightParenthesis, ")", .columns 1 10 10⟩,
        ⟨.equal, "=", .columns 1 11 11⟩, ⟨.name, "down", .columns 1 12 15⟩,
        ⟨.leftParenthesis, "(", .columns 1 16 16⟩,
        ⟨.name, "a", .columns 1 17 17⟩,
        ⟨.rightParenthesis, ")", .columns 1 18 18⟩] := by
    decide +kernel
  have scannedRequest : Token.scan 1 request =
      .ok [⟨.name, "y", .columns 1 1 1⟩, ⟨.equal, "=", .columns 1 2 2⟩,
        ⟨.name, "down", .columns 1 3 6⟩,
        ⟨.leftParenthesis, "(", .columns 1 7 7⟩,
        ⟨.number, "3", .columns 1 8 8⟩,
        ⟨.rightParenthesis, ")", .columns 1 9 9⟩] := by
    decide +kernel
  have defines : session.read definition = .ok (.definition
      ⟨⟨"f", .columns 1 7 7⟩, [⟨"a", .columns 1 9 9⟩],
        .call ⟨"down", .columns 1 12 15⟩ [.var ⟨"a", .columns 1 17 17⟩]
          (.columns 1 18 18)⟩) := by
    rw [read_of_beginsOperand session scannedDefinition rfl]
    cbv
  have read_eq : session.read request = .ok (.expression
      (.assign (.var ⟨"y", .columns 1 1 1⟩)
        (.call ⟨"down", .columns 1 3 6⟩ [.literal 3 (.columns 1 8 8)]
          (.columns 1 9 9)))) := by
    rw [read_of_beginsOperand session scannedRequest rfl]
    cbv
  have closed : ∀ caller ∈ ["down"], ∀ function,
      session.functions.find? caller = some function →
        function.body.calleeNames ⊆ ["down"] := by
    intro caller given function found
    cases List.mem_singleton.mp given
    cases found
    decide
  refine evaluate_definition_comm defines ?_
  intro statement read_eq'
  cases read_eq.symm.trans read_eq'
  intro reaches
  have member : "f" ∈ ["down"] := reaches.mem_of_closed closed (by decide)
  revert member
  decide

end Session
end Calculator
