import Calculator.Proofs.Evaluator.Frame
import Calculator.Proofs.Grammar.Names
import Calculator.Proofs.Session.Requests
import Calculator.Session.Prelude

/-!
# Sessions that requests lead to

Whatever is asked of a session that begins with nothing, its variables have
proper names, and its functions are stored under their own names and are such as
the grammar reads them.  Once a variable or a function has a name, it keeps it.
-/

namespace Calculator

namespace Expr

/-- A tree such as the grammar reads it, which is proper and not too tall. -/
structure WellFormed (expression : Expr) : Prop extends
    expression.IsProper where
  height_le : expression.height ≤ Grammar.maximumHeight

mutual

theorem parts_sublist_nodes :
    (expression : Expr) → expression.parts.Sublist expression.nodes
  | .literal .. | .var _ => List.Sublist.refl _
  | .binary _ left right =>
      ((parts_sublist_nodes left).append
        (parts_sublist_nodes right)).cons_cons _
  | .assign _ value =>
      ((parts_sublist_nodes value).trans
        (List.sublist_append_right _ _)).cons_cons _
  | .conditional test onTrue onFalse =>
      ((parts_sublist_nodes test).append ((parts_sublist_nodes onTrue).append
        (parts_sublist_nodes onFalse))).cons_cons _
  | .call _ arguments _ =>
      (partsOfAll_sublist_nodesOfAll arguments).cons_cons _

theorem partsOfAll_sublist_nodesOfAll :
    (expressions : List Expr) →
      (partsOfAll expressions).Sublist (nodesOfAll expressions)
  | [] => List.Sublist.refl _
  | first :: rest =>
      (parts_sublist_nodes first).append (partsOfAll_sublist_nodesOfAll rest)

end

/-- What an expression may read is named in it. -/
theorem variableNames_subset_names (expression : Expr) :
    expression.variableNames ⊆ expression.names := by
  intro name read
  obtain ⟨part, isPart, part_eq⟩ := List.mem_filterMap.mp read
  have isNode := (parts_sublist_nodes expression).subset isPart
  cases part with
  | var readName => exact List.mem_filterMap.mpr ⟨_, isNode, part_eq⟩
  | _ => cases part_eq

/-- What an expression may store is named in it, if it stores variables only. -/
theorem Permitted.targetNames_subset_names {expression : Expr}
    (permitted : expression.Permitted) :
    expression.targetNames ⊆ expression.names := by
  intro name stored
  obtain ⟨part, isPart, part_eq⟩ := List.mem_filterMap.mp stored
  have isNode := (parts_sublist_nodes expression).subset isPart
  cases part with
  | assign target value =>
      obtain ⟨targetName, rfl⟩ := permitted.targets target value isNode
      cases part_eq
      have targetIsNode : .var targetName ∈ expression.nodes :=
        hasParts_nodes expression _ isNode (by simp [nodes])
      exact List.mem_filterMap.mpr ⟨_, targetIsNode, rfl⟩
  | _ => cases part_eq

end Expr

/-- A function such as the grammar reads it. -/
structure FunctionDefinition.WellFormed (function : FunctionDefinition) :
    Prop where
  name : IsProperName function.name.text
  parameters : ∀ parameter ∈ function.parameterNames, IsProperName parameter
  distinct : function.parameterNames.Nodup
  few : function.arity ≤ Grammar.maximumArity
  body : function.body.WellFormed

/-- A statement such as the grammar reads it. -/
def Statement.WellFormed : Statement → Prop
  | .expression value => value.WellFormed
  | .definition function => function.WellFormed

/-- What is read off tokens whose names are identifiers is well formed. -/
theorem Statement.wellFormed_of_parse {tokens : List Token}
    {statement : Statement} (parsed : parse tokens = .ok statement)
    (identifiers : ∀ token ∈ tokens, token.kind = .name →
      IsIdentifier token.lexeme) : statement.WellFormed := by
  obtain ⟨⟨entries, _, derives⟩, height_le, permitted, distinct, few⟩ :=
    Grammar.admits_of_parse parsed
  have proper : ∀ name ∈ statement.names, IsProperName name := by
    intro name named
    obtain ⟨token, given, isName, rfl⟩ := derives.spelledIn name named
    exact ⟨identifiers token given isName.kind, isName.lexeme⟩
  cases statement with
  | expression value => exact ⟨⟨proper, permitted⟩, height_le⟩
  | definition function =>
      obtain ⟨properName, properOthers⟩ := List.forall_mem_cons.mp proper
      obtain ⟨properParameters, properBody⟩ :=
        List.forall_mem_append.mp properOthers
      refine ⟨properName, properParameters, distinct, ?_,
        ⟨properBody, permitted⟩, height_le⟩
      rw [FunctionDefinition.arity, ← List.length_map]
      exact few

namespace Session

variable {session : Session} {text : String}

/-- What is read off a text is well formed. -/
theorem wellFormed_of_read {statement : Statement}
    (read_eq : session.read text = .ok statement) : statement.WellFormed := by
  cases scanned : Token.scan 1 text with
  | error error =>
      simp only [read, TokenSequence.ofRequest, TokenSequence.scan, scanned]
        at read_eq
      cases read_eq
  | ok tokens =>
      have identifiers : ∀ token ∈ tokens, token.kind = .name →
          IsIdentifier token.lexeme := by
        intro token given isName
        rw [IsIdentifier, ← isName]
        exact Token.spells_of_scan scanned token given
      cases tokens with
      | nil =>
          rw [read_of_nil session scanned] at read_eq
          exact Statement.wellFormed_of_parse read_eq identifiers
      | cons first rest =>
          by_cases begins : first.kind.beginsOperand = true
          · rw [read_of_beginsOperand _ scanned begins] at read_eq
            exact Statement.wellFormed_of_parse read_eq identifiers
          · rw [Bool.not_eq_true] at begins
            rw [read_of_not_beginsOperand _ scanned begins] at read_eq
            -- The previous value in front is a number.
            refine Statement.wellFormed_of_parse read_eq
              (List.forall_mem_cons.mpr ⟨fun isName => ?_, identifiers⟩)
            cases isName

/-- Variables have proper names, and functions are stored under their own names
and are such as the grammar reads them. -/
structure WellFormed (session : Session) : Prop where
  environment : ∀ name, (session.environment.find? name).isSome = true →
    IsProperName name
  functions : ∀ name function, session.functions.find? name = some function →
    function.name.text = name ∧ function.WellFormed

theorem wellFormed_initial (limits : Limits) (grants : Nat → Bool) :
    WellFormed { limits, grants } :=
  ⟨nofun, nofun⟩

/-- A request keeps a session well formed. -/
theorem WellFormed.evaluate (wellFormed : session.WellFormed) (text : String) :
    (session.evaluate text).2.WellFormed := by
  have answers := answers_evaluate session text
  generalize session.evaluate text = answer at answers ⊢
  cases answers with
  | refused _ => exact wellFormed
  | @defined function _ read_eq =>
      refine ⟨wellFormed.environment, fun name other found => ?_⟩
      simp only [define, FunctionTable.find?_define] at found
      split at found
      · next same =>
        cases found
        exact ⟨same, wellFormed_of_read read_eq⟩
      · exact wellFormed.functions name other found
  | @evaluated expression value _ read_eq _ =>
      refine ⟨fun name bound => ?_, wellFormed.functions⟩
      have readWell : expression.WellFormed := wellFormed_of_read read_eq
      have evolves := Evaluator.evolves_evaluate
        (Evaluator.fresh session.functions session.limits) expression
        session.environment
      rcases evolves.binds_only bound with before | read | stored
      · exact wellFormed.environment name before
      · exact readWell.names name (expression.variableNames_subset_names read)
      · exact readWell.names name
          (readWell.permitted.targetNames_subset_names stored)

/-- A session has all the names that another one has. -/
structure Keeps (before after : Session) : Prop where
  environment : ∀ name, (before.environment.find? name).isSome = true →
    (after.environment.find? name).isSome = true
  functions : ∀ name, before.functions.contains name = true →
    after.functions.contains name = true

theorem Keeps.trans {before between after : Session}
    (first : before.Keeps between) (second : between.Keeps after) :
    before.Keeps after :=
  ⟨fun name bound => second.environment name (first.environment name bound),
    fun name defined => second.functions name (first.functions name defined)⟩

/-- No request takes a name away. -/
theorem keeps_evaluate (session : Session) (text : String) :
    session.Keeps (session.evaluate text).2 := by
  have answers := answers_evaluate session text
  generalize session.evaluate text = answer at answers ⊢
  cases answers with
  | refused _ => exact ⟨fun _ bound => bound, fun _ defined => defined⟩
  | defined _ _ =>
      refine ⟨fun _ bound => bound, fun name defined => ?_⟩
      rw [FunctionTable.contains_eq_isSome] at defined ⊢
      simp only [define, FunctionTable.find?_define]
      split
      · rfl
      · exact defined
  | evaluated _ _ _ =>
      exact ⟨fun _ bound => (Evaluator.evolves_evaluate ..).keeps bound,
        fun _ defined => defined⟩

/-! ### Runs -/

/-- What may be asked of a session. -/
inductive Command
  | request (text : String)
  | prelude

/-- What a command makes of a session. -/
def Command.effect : Command → Session → Session
  | .request text => fun session => (session.evaluate text).2
  | .prelude => fun session => session.loadPrelude.2

-- Read with a session in place, the equations would be checked by answering it.
theorem Command.effect_request (text : String) :
    effect (.request text) = fun session => (session.evaluate text).2 :=
  rfl

theorem Command.effect_prelude :
    effect .prelude = fun session => (session.defineAll preludeSources).2 :=
  rfl

/-- The session after some commands. -/
def obey (session : Session) (commands : List Command) : Session :=
  commands.foldl (fun current command => command.effect current) session

theorem obey_cons (session : Session) (command : Command)
    (commands : List Command) :
    session.obey (command :: commands) =
      (command.effect session).obey commands := by
  simp only [obey, List.foldl_cons]

section Runs

variable {Holds : Session → Prop}
  (step : ∀ session text, Holds session → Holds (evaluate session text).2)
include step

theorem holds_defineAll (sources : List String) (holds : Holds session) :
    Holds (session.defineAll sources).2 := by
  induction sources generalizing session with
  | nil => exact holds
  | cons source sources induction =>
      have holdsNext := step session source holds
      rw [defineAll]
      generalize session.evaluate source = answered at holdsNext ⊢
      obtain ⟨answer, after⟩ := answered
      cases answer with
      | error error => exact holdsNext
      | ok outcome => cases outcome <;> exact induction holdsNext

/-- What requests preserve holds after any commands. -/
theorem holds_obey (commands : List Command) (holds : Holds session) :
    Holds (session.obey commands) := by
  induction commands generalizing session with
  | nil => exact holds
  | cons command commands induction =>
      rw [obey_cons]
      apply induction
      cases command with
      | request text =>
          rw [Command.effect_request]
          exact step session text holds
      | prelude =>
          rw [Command.effect_prelude]
          exact holds_defineAll step preludeSources holds

end Runs

theorem limits_obey (limits : Limits) (grants : Nat → Bool)
    (commands : List Command) :
    (obey { limits, grants } commands).limits = limits :=
  @holds_obey _ (fun session => session.limits = limits)
    (fun session text same => (limits_evaluate session text).trans same)
    commands rfl

theorem wellFormed_obey (limits : Limits) (grants : Nat → Bool)
    (commands : List Command) :
    (obey { limits, grants } commands).WellFormed :=
  holds_obey (fun _ text wellFormed => wellFormed.evaluate text) commands
    (wellFormed_initial limits grants)

/-- Whatever is asked of a session that begins with nothing, and whatever the
system grants it, its variables have proper names and its functions are such as
the grammar reads them, and whatever is asked of it later, every name that is
bound or defined then stays so. -/
theorem obey_invariant (limits : Limits) (grants : Nat → Bool)
    (earlier later : List Command) :
    let session := obey { limits, grants } earlier
    let final := session.obey later
    session.WellFormed ∧
      (∀ name, (session.environment.find? name).isSome = true →
        (final.environment.find? name).isSome = true) ∧
      ∀ name, session.functions.contains name = true →
        final.functions.contains name = true := by
  intro session final
  have keeps : session.Keeps final :=
    holds_obey
      (fun between text keeps => keeps.trans (keeps_evaluate between text))
      later ⟨fun _ bound => bound, fun _ defined => defined⟩
  exact ⟨wellFormed_obey limits grants earlier, keeps.environment, keeps.functions⟩

end Session
end Calculator
