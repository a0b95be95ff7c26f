import Calculator.Proofs.Grammar.Requests
import Calculator.Proofs.Token.Shape

/-!
# The names in a tree

The variables and the functions that a tree mentions, those inside the targets
of assignments included.  In a proper tree they are identifiers other than the
keyword.  A tree that is read off some tokens mentions names of these tokens
only, and so does a definition with its name and its parameters.
-/

namespace Calculator

/-- An identifier other than the keyword. -/
structure IsProperName (name : String) : Prop where
  identifier : IsIdentifier name
  notKeyword : name ≠ definitionKeyword

instance : DecidablePred IsProperName :=
  fun _ => decidable_of_iff (_ ∧ _) ⟨fun both => ⟨both.1, both.2⟩,
    fun proper => ⟨proper.identifier, proper.notKeyword⟩⟩

namespace Expr

/-- With every tree, the list has all of its parts. -/
def HasParts (expressions : List Expr) : Prop :=
  ∀ expression ∈ expressions, expression.nodes ⊆ expressions

theorem hasParts_nil : HasParts [] :=
  nofun

theorem HasParts.append {first second : List Expr} (hasFirst : HasParts first)
    (hasSecond : HasParts second) : HasParts (first ++ second) := by
  intro expression member
  rcases List.mem_append.mp member with inFirst | inSecond
  · exact List.subset_append_of_subset_left _ (hasFirst expression inFirst)
  · exact List.subset_append_of_subset_right _ (hasSecond expression inSecond)

theorem hasParts_of_nodes_eq {whole : Expr} {others : List Expr}
    (nodes_eq : whole.nodes = whole :: others) (hasOthers : HasParts others) :
    HasParts whole.nodes := by
  intro expression member
  rw [nodes_eq] at member
  rcases List.mem_cons.mp member with rfl | inside
  · exact List.Subset.refl _
  · rw [nodes_eq]
    exact List.subset_cons_of_subset _ (hasOthers expression inside)

mutual

/-- The parts of a part are parts of the whole. -/
theorem hasParts_nodes : (expression : Expr) → HasParts expression.nodes
  | .literal .. | .var _ => hasParts_of_nodes_eq rfl hasParts_nil
  | .binary _ left right =>
      hasParts_of_nodes_eq rfl
        ((hasParts_nodes left).append (hasParts_nodes right))
  | .assign target value =>
      hasParts_of_nodes_eq rfl
        ((hasParts_nodes target).append (hasParts_nodes value))
  | .conditional test onTrue onFalse =>
      hasParts_of_nodes_eq rfl ((hasParts_nodes test).append
        ((hasParts_nodes onTrue).append (hasParts_nodes onFalse)))
  | .call _ arguments _ =>
      hasParts_of_nodes_eq rfl (hasParts_nodesOfAll arguments)

theorem hasParts_nodesOfAll : (expressions : List Expr) →
    HasParts (nodesOfAll expressions)
  | [] => hasParts_nil
  | first :: rest =>
      (hasParts_nodes first).append (hasParts_nodesOfAll rest)

end

/-- Every tree is one of its nodes. -/
@[simp] theorem mem_nodes_self (expression : Expr) :
    expression ∈ expression.nodes := by
  cases expression <;> simp [nodes]

/-- The arguments of a call are among its nodes. -/
theorem mem_nodes_of_mem_arguments {callee : Name} {arguments : List Expr}
    {close : Span} {argument : Expr} (given : argument ∈ arguments) :
    argument ∈ (call callee arguments close).nodes := by
  simp only [nodes, List.mem_cons, mem_nodesOfAll]
  exact .inr ⟨argument, given, argument.mem_nodes_self⟩

/-- The name that a tree consists of or calls. -/
def name? : Expr → Option String
  | .var name => some name.text
  | .call callee _ _ => some callee.text
  | _ => none

/-- The variables and the functions that a tree mentions. -/
def names (expression : Expr) : List String :=
  expression.nodes.filterMap name?

/-- The names of some trees. -/
def namesOfAll (expressions : List Expr) : List String :=
  (nodesOfAll expressions).filterMap name?

@[simp] theorem names_literal (value : Int64) (span : Span) :
    (literal value span).names = [] :=
  rfl

@[simp] theorem names_var (name : Name) : (var name).names = [name.text] :=
  rfl

@[simp] theorem names_binary (operator : Operator) (left right : Expr) :
    (binary operator left right).names = left.names ++ right.names := by
  rw [names, nodes, List.filterMap_cons_none rfl, List.filterMap_append]
  rfl

@[simp] theorem names_assign (target value : Expr) :
    (assign target value).names = target.names ++ value.names := by
  rw [names, nodes, List.filterMap_cons_none rfl, List.filterMap_append]
  rfl

@[simp] theorem names_conditional (test onTrue onFalse : Expr) :
    (conditional test onTrue onFalse).names =
      test.names ++ (onTrue.names ++ onFalse.names) := by
  rw [names, nodes, List.filterMap_cons_none rfl, List.filterMap_append,
    List.filterMap_append]
  rfl

@[simp] theorem names_call (callee : Name) (arguments : List Expr)
    (close : Span) :
    (call callee arguments close).names =
      callee.text :: namesOfAll arguments :=
  rfl

@[simp] theorem namesOfAll_nil : namesOfAll [] = [] :=
  rfl

@[simp] theorem namesOfAll_cons (first : Expr) (rest : List Expr) :
    namesOfAll (first :: rest) = first.names ++ namesOfAll rest := by
  rw [namesOfAll, nodesOfAll, List.filterMap_append]
  rfl

theorem namesOfAll_append (before after : List Expr) :
    namesOfAll (before ++ after) = namesOfAll before ++ namesOfAll after := by
  induction before with
  | nil => rfl
  | cons first rest induction =>
      rw [List.cons_append, namesOfAll_cons, induction, namesOfAll_cons,
        List.append_assoc]

/-- A tree with proper names that is permitted. -/
structure IsProper (expression : Expr) : Prop where
  names : ∀ name ∈ expression.names, IsProperName name
  permitted : expression.Permitted

/-- So are all parts of such a tree. -/
theorem IsProper.part {whole part : Expr} (proper : whole.IsProper)
    (isPart : part ∈ whole.nodes) : part.IsProper := by
  have subset : part.nodes ⊆ whole.nodes := hasParts_nodes whole part isPart
  refine ⟨fun name named => ?_, fun target value inPart => ?_,
    fun callee arguments close inPart => ?_⟩
  · obtain ⟨node, inPart, node_eq⟩ := List.mem_filterMap.mp named
    exact proper.names name
      (List.mem_filterMap.mpr ⟨node, subset inPart, node_eq⟩)
  · exact proper.permitted.targets target value (subset inPart)
  · exact proper.permitted.arguments callee arguments close (subset inPart)

end Expr

namespace FunctionDefinition

/-- The name of a function, its parameters and the names in its body. -/
def names (function : FunctionDefinition) : List String :=
  function.name.text :: (function.parameterNames ++ function.body.names)

end FunctionDefinition

namespace Statement

/-- The names that a statement mentions. -/
def names : Statement → List String
  | .expression value => value.names
  | .definition function => function.names

end Statement

namespace Grammar

mutual

/-- What follows a phrase is the end of its tokens. -/
theorem Reads.rest_suffix {category : Category} {tokens rest : List Token}
    {expression : Expr} {entries : Nat} :
    Reads category tokens expression rest entries → rest <:+ tokens
  | .number _ | .name _ _ => List.suffix_cons ..
  | .parentheses _ inner _ =>
      ((List.suffix_cons ..).trans inner.rest_suffix).trans
        (List.suffix_cons ..)
  | .negation _ product _ => product.rest_suffix.trans (List.suffix_cons ..)
  | .emptyCall _ _ _ => ⟨[_, _, _], rfl⟩
  | .call _ _ given _ =>
      ((List.suffix_cons ..).trans given.rest_suffix).trans ⟨[_, _], rfl⟩
  | .operand reads _ | .test reads _ | .value reads _ _ => reads.rest_suffix
  | .operation before _ reads _ =>
      (reads.rest_suffix.trans (List.suffix_cons ..)).trans before.rest_suffix
  | .branches before _ readsTrue _ readsFalse =>
      (((readsFalse.rest_suffix.trans (List.suffix_cons ..)).trans
        readsTrue.rest_suffix).trans (List.suffix_cons ..)).trans
          before.rest_suffix
  | .store readsTarget _ readsValue =>
      (readsValue.rest_suffix.trans (List.suffix_cons ..)).trans
        readsTarget.rest_suffix

theorem ReadsArguments.rest_suffix {tokens rest : List Token}
    {arguments : List Expr} {entries : Nat} :
    ReadsArguments tokens arguments rest entries → rest <:+ tokens
  | .one reads => reads.rest_suffix
  | .more readsBefore _ reads =>
      (reads.rest_suffix.trans (List.suffix_cons ..)).trans
        readsBefore.rest_suffix

end

/-- Every name is spelled by one of the tokens. -/
def SpelledIn (tokens : List Token) (names : List String) : Prop :=
  ∀ name ∈ names, ∃ token ∈ tokens, IsName token ∧ token.lexeme = name

namespace SpelledIn

variable {tokens others : List Token} {names more : List String}

theorem mono (spelled : SpelledIn tokens names) (subset : tokens ⊆ others) :
    SpelledIn others names := by
  intro name member
  obtain ⟨token, given, spells⟩ := spelled name member
  exact ⟨token, subset given, spells⟩

theorem nil : SpelledIn tokens [] :=
  nofun

theorem cons {token : Token} (isName : IsName token) (given : token ∈ tokens)
    (spelled : SpelledIn tokens names) :
    SpelledIn tokens (token.lexeme :: names) :=
  List.forall_mem_cons.mpr ⟨⟨token, given, isName, rfl⟩, spelled⟩

theorem append (spelled : SpelledIn tokens names)
    (spelledMore : SpelledIn tokens more) : SpelledIn tokens (names ++ more) :=
  List.forall_mem_append.mpr ⟨spelled, spelledMore⟩

end SpelledIn

mutual

/-- A tree that is read mentions names of its tokens. -/
theorem Reads.spelledIn {category : Category} {tokens rest : List Token}
    {expression : Expr} {entries : Nat} :
    Reads category tokens expression rest entries →
      SpelledIn tokens expression.names
  | .number _ => .nil
  | .name isName _ => .cons isName List.mem_cons_self .nil
  | .parentheses _ inner _ => inner.spelledIn.mono (List.subset_cons_self ..)
  | .negation _ product _ => product.spelledIn.mono (List.subset_cons_self ..)
  | .emptyCall isName _ _ => .cons isName List.mem_cons_self .nil
  | .call isName _ given _ =>
      .cons isName List.mem_cons_self
        (given.spelledIn.mono (List.subset_append_right [_, _] _))
  | .operand reads _ | .test reads _ | .value reads _ _ => reads.spelledIn
  | .operation before _ reads _ => by
      rw [Expr.names_binary]
      have subset := ((List.suffix_cons ..).trans before.rest_suffix).subset
      exact before.spelledIn.append (reads.spelledIn.mono subset)
  | .branches before _ readsTrue _ readsFalse => by
      rw [Expr.names_conditional]
      have subset := ((List.suffix_cons ..).trans before.rest_suffix).subset
      have subsetFalse :=
        ((List.suffix_cons ..).trans readsTrue.rest_suffix).subset
      exact before.spelledIn.append ((readsTrue.spelledIn.mono subset).append
        ((readsFalse.spelledIn.mono subsetFalse).mono subset))
  | .store readsTarget _ readsValue => by
      rw [Expr.names_assign]
      have subset :=
        ((List.suffix_cons ..).trans readsTarget.rest_suffix).subset
      exact readsTarget.spelledIn.append (readsValue.spelledIn.mono subset)

theorem ReadsArguments.spelledIn {tokens rest : List Token}
    {arguments : List Expr} {entries : Nat} :
    ReadsArguments tokens arguments rest entries →
      SpelledIn tokens (Expr.namesOfAll arguments)
  | .one reads => by
      rw [Expr.namesOfAll_cons, Expr.namesOfAll_nil, List.append_nil]
      exact reads.spelledIn
  | .more readsBefore _ reads => by
      rw [Expr.namesOfAll_append, Expr.namesOfAll_cons, Expr.namesOfAll_nil,
        List.append_nil]
      have subset :=
        ((List.suffix_cons ..).trans readsBefore.rest_suffix).subset
      exact readsBefore.spelledIn.append (reads.spelledIn.mono subset)

end

theorem ReadsNames.rest_suffix {tokens rest : List Token} {names : List Name}
    (reads : ReadsNames tokens names rest) : rest <:+ tokens := by
  induction reads with
  | last => exact List.suffix_cons ..
  | more _ _ _ induction => exact induction.trans ⟨[_, _], rfl⟩

theorem ReadsNames.spelledIn {tokens rest : List Token} {names : List Name}
    (reads : ReadsNames tokens names rest) :
    SpelledIn tokens (names.map Name.text) := by
  induction reads with
  | last isName _ => exact .cons isName List.mem_cons_self .nil
  | more isName _ _ induction =>
      exact .cons isName List.mem_cons_self
        (induction.mono (List.subset_append_right [_, _] _))

theorem ReadsParameters.rest_suffix {tokens rest : List Token}
    {names : List Name} (reads : ReadsParameters tokens names rest) :
    rest <:+ tokens := by
  cases reads with
  | none _ => exact List.suffix_refl _
  | some reads => exact reads.rest_suffix

theorem ReadsParameters.spelledIn {tokens rest : List Token}
    {names : List Name} (reads : ReadsParameters tokens names rest) :
    SpelledIn tokens (names.map Name.text) := by
  cases reads with
  | none _ => exact .nil
  | some reads => exact reads.spelledIn

/-- A statement mentions names of its tokens. -/
theorem Derives.spelledIn {tokens : List Token} {statement : Statement}
    {entries : Nat} (derives : Derives tokens statement entries) :
    SpelledIn tokens statement.names := by
  cases derives with
  | expression reads => exact reads.spelledIn
  | definition _ isName _ readsParameters _ _ readsBody =>
      have spelled := readsParameters.spelledIn.append (readsBody.spelledIn.mono
        (List.IsSuffix.trans ⟨[_, _], rfl⟩ readsParameters.rest_suffix).subset)
      exact .cons isName (by simp)
        (spelled.mono (List.subset_append_right [_, _, _] _))

end Grammar
end Calculator
