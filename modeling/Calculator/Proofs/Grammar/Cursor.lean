import Calculator.Proofs.Grammar.Contract
import Calculator.Proofs.Token.Zipper

/-!
# Requests behind the cursor

The machine reads a request through its cursor, which it moves over one token
after the other.  It comes to an end, and what it makes of a sequence is what the
grammar makes of the tokens that remain.  So neither the tokens that were
consumed before nor the place of the cursor matter, however the sequence came
about.
-/

namespace Calculator
namespace Parser

open Grammar

variable {start : Course}

/-! ### Definitions -/

theorem meets_parametersFrom (function : Name) (before : List Name) :
    Meets (parametersFrom function · before) start
      (parametersStep function before) (fun names _ => names)
      fun _ _ => True := by
  induction size : start.remaining.length using Nat.strongRecOn
    generalizing start before with
  | _ length induction =>
  rw [parametersStep_eq]
  apply Meets.succ _ (fun depth => rfl)
  apply (Meets.name _).bind
  intro parameter course follows cursor_lt
  cases admitted : admitParameter function before parameter with
  | error error => exact (Meets.throw error).congr (fun _ => rfl) fun _ => rfl
  | ok names =>
      rw [lift_ok_bind]
      apply Meets.after_match? (decide_eq_only _)
      · intro _
        exact .pure trivial rfl
      · intro _ comma afterComma _ consumes
        apply induction _ _ _ rfl
        have := follows.length_remaining_le
        have := consumes.length_remaining_lt
        omega

theorem meets_parametersOf (function : Name) :
    Meets (parametersOf · function) start
      (Step.peek .rightParenthesis (pure []) (parametersStep function []))
      (fun names _ => names) fun _ _ => True := by
  exact .after_peek (.pure trivial rfl) (meets_parametersFrom function [])

/-- A whole expression is an assignment with all the room that there is. -/
theorem meets_expression (hasRoom : start.HasRoom maximumNesting) :
    Meets (run · .assign) start (step expression) Measured.mk
      (Accepts start) :=
  keeps .assign maximumNesting start hasRoom

theorem meets_definition (hasRoom : start.HasRoom maximumNesting) :
    Meets (definition ·) start definitionStep (fun function _ => function)
      fun _ _ => True := by
  apply (Meets.name _).bind
  intro function afterName nameFollows _
  apply (Meets.consume _ _).bind
  intro opening afterOpening openingFollows _
  apply (meets_parametersOf function).bind
  intro names afterNames namesFollow _
  apply (Meets.consume _ _).bind
  intro closing afterClosing closingFollows _
  apply (Meets.consume _ _).bind
  intro sign afterSign signFollows _
  have follows := (((nameFollows.trans openingFollows).trans
    namesFollow).trans closingFollows).trans signFollows
  apply (meets_expression (follows.hasRoom hasRoom)).bind
  intro body final _ _
  exact .pure trivial rfl

/-! ### Requests -/

theorem meets_statement (hasRoom : start.HasRoom maximumNesting) :
    Meets (statement ·) start statementStep (fun statement _ => statement)
      fun _ _ => True := by
  have value : Meets (fun depth => do
      let value ← run depth .assign
      pure (Statement.expression value)) start (do
      let value ← step expression
      pure (.expression value.expression)) (fun statement _ => statement)
      fun _ _ => True := by
    apply (meets_expression hasRoom).bind
    intro value final _ _
    exact .pure trivial rfl
  apply Meets.after_peek?
  cases peeked : start.parser.sequence.peek? with
  | none =>
      have ended : start.remaining = [] :=
        TokenSequence.remaining_eq_nil peeked
      apply value.congr (fun _ => rfl)
      intro _
      rw [ended]
      rfl
  | some token =>
      have consumes := consumes_advanced peeked
      cases isKeyword : token.isDefinitionKeyword with
      | false =>
          simp only [Option.any_some, isKeyword]
          apply value.congr (fun _ => rfl)
          intro _
          rw [consumes.remaining_eq, statementStep]
          simp only [isKeyword]
          rfl
      | true =>
          have statement_eq (rest : List Token) :
              statementStep (token :: rest) = (do
                let function ← definitionStep
                pure (.definition function) : Step Statement) rest :=
            if_pos isKeyword
          simp only [Option.any_some, isKeyword, if_true]
          apply Meets.after_advance peeked statement_eq
          intro course consumes
          apply (meets_definition (consumes.follows.hasRoom hasRoom)).bind
          intro function final _ _
          exact .pure trivial rfl

theorem meets_request (hasRoom : start.HasRoom maximumNesting) :
    Meets (request ·) start requestStep (fun statement _ => statement)
      fun _ _ => True := by
  apply (meets_statement hasRoom).bind
  intro statement course _ _
  apply Meets.after_peek?
  cases peeked : course.parser.sequence.peek? with
  | none =>
      have ended : course.remaining = [] :=
        TokenSequence.remaining_eq_nil peeked
      apply (Meets.pure trivial rfl).congr (fun _ => rfl)
      intro _
      rw [ended]
      rfl
  | some token =>
      apply (Meets.throw _).congr (fun _ => rfl)
      intro _
      rw [(consumes_advanced peeked).remaining_eq]
      rfl

/-- The machine comes to an end on a sequence and makes of it what the grammar
makes of the tokens that remain. -/
theorem parse_eq_some (sequence : TokenSequence)
    (inMemory : sequence.size < UInt64.size) :
    ∃ depth, ∀ more, depth ≤ more →
      parse more sequence = some sequence.parse := by
  have hasRoom : (ofSequence sequence).begun.HasRoom maximumNesting :=
    Nat.zero_add _
  obtain ⟨depth, outcome, final, ended, -, -, agrees⟩ := meets_request hasRoom
  refine ⟨depth, fun more le_more => ?_⟩
  have read : requestStep sequence.remaining =
      outcome.map fun statement => (statement, final.remaining) :=
    agrees inMemory
  have parse_eq : sequence.parse = outcome := by
    rw [TokenSequence.parse, Statement.parse_eq, read]
    cases outcome <;> rfl
  rw [parse_eq]
  exact congrArg (Option.map Prod.fst) (ended more le_more)

end Parser

namespace TokenSequence

/-- Whatever is done to a sequence, it stays the buffer of a zipper: the tokens
that were consumed, with those that remain after them, and the cursor between.
Looking ahead sees only what remains, and so does the machine: it comes to the
same end as on a fresh sequence of the tokens that remain, which is what the
grammar makes of them. -/
theorem performed_as_zipper (sequence : TokenSequence)
    (inside : sequence.cursor ≤ sequence.size) (operations : List Operation) :
    let performed := perform operate sequence operations
    let zipped := perform Zipper.operate sequence.zipper operations
    let reached := performed.2
    performed.1 = zipped.1 ∧ reached = zipped.2.sequence ∧
      reached.remaining = zipped.2.ahead ∧
      reached.tokens = sequence.tokens.take sequence.cursor ++
        performed.1.filterMap id ++ reached.remaining ∧
      reached.cursor ≤ reached.size ∧
      (∀ distance : UInt64,
        reached.cursor + distance.toNat < UInt64.size →
          reached.peekAt? distance = reached.remaining[distance.toNat]?) ∧
      (reached.size < UInt64.size →
        ∃ depth, ∀ more, depth ≤ more →
          Parser.parse more reached = some reached.parse ∧
            Parser.parse more (.ofList reached.remaining) =
              some reached.parse) := by
  intro performed zipped reached
  have performed_eq : performed = (zipped.1, zipped.2.sequence) := by
    have zipper_eq := Zipper.perform_sequence operations sequence.zipper
    rwa [sequence_zipper inside] at zipper_eq
  have reached_eq : reached = zipped.2.sequence :=
    congrArg Prod.snd performed_eq
  have remaining_eq : reached.remaining = zipped.2.ahead := by
    rw [reached_eq, Zipper.remaining_sequence]
  refine ⟨congrArg Prod.fst performed_eq, reached_eq, remaining_eq, ?_, ?_,
    reached.peekAt?_eq_getElem?_remaining, fun inMemory => ?_⟩
  · have passed_eq := Zipper.passed_perform operations sequence.zipper
    have consumed_eq : performed.1 = zipped.1 := congrArg Prod.fst performed_eq
    rw [remaining_eq, reached_eq, consumed_eq]
    exact congrArg (· ++ zipped.2.ahead) passed_eq
  · rw [reached_eq]
    exact zipped.2.cursor_le_size
  · have shorter : (ofList reached.remaining).size ≤ reached.size := by
      rw [size, ofList, remaining, List.length_drop]
      exact Nat.sub_le _ _
    obtain ⟨depth, ended⟩ := Parser.parse_eq_some reached inMemory
    obtain ⟨depth', ended'⟩ := Parser.parse_eq_some (ofList reached.remaining)
      (Nat.lt_of_le_of_lt shorter inMemory)
    refine ⟨max depth depth', fun more le_more => ⟨ended more ?_, ?_⟩⟩
    · omega
    · exact ended' more (by omega)

set_option maxRecDepth 10000 in
/-- A parenthesis that was consumed before is not part of the request, but a
token that is put in front is. -/
theorem performed_as_zipper_with_sum :
    let opening : Token := ⟨.leftParenthesis, "(", .columns 1 1 1⟩
    let name : Token := ⟨.name, "x", .columns 1 2 2⟩
    let sign : Token := ⟨.plus, "+", .columns 1 3 3⟩
    let number : Token := ⟨.number, "5", .columns 1 4 4⟩
    let earlier : Token := ⟨.number, "-7", .unknown⟩
    let sequence : TokenSequence := ⟨[opening, name, sign, number], 1⟩
    let reached :=
      (perform operate sequence [.advance, .prepend earlier]).2
    sequence.cursor ≤ sequence.size ∧
      reached.tokens = [opening, name, earlier, sign, number] ∧
      reached.cursor = 2 ∧
      ∃ depth, ∀ more, depth ≤ more →
        Parser.parse more reached = some (.ok (.expression (.binary .plus
          (.literal (-7) .unknown) (.literal 5 (.columns 1 4 4))))) := by
  intro opening name sign number earlier sequence reached
  have inside : sequence.cursor ≤ sequence.size := by decide
  obtain ⟨-, -, -, -, -, -, agrees⟩ := performed_as_zipper sequence inside
    [.advance, .prepend earlier]
  obtain ⟨depth, ended⟩ := agrees (by decide)
  have parsed : reached.parse = .ok (.expression (.binary .plus
      (.literal (-7) .unknown) (.literal 5 (.columns 1 4 4)))) := by
    cbv
  refine ⟨inside, rfl, rfl, depth, fun more le_more => ?_⟩
  rw [← parsed]
  exact (ended more le_more).1

end TokenSequence
end Calculator
