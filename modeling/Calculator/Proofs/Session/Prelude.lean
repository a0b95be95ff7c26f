import Calculator.Proofs.Evaluator.Calls
import Calculator.Proofs.Grammar.Infix
import Calculator.Proofs.Session.Places
import Calculator.Session.Prelude

/-!
# Calling functions of the prelude

A request that calls a function with variables that are bound replies what the
function replies to their values, and changes no variable.  What the functions
of the prelude reply is read off their definitions, which are given here without
places.
-/

namespace Calculator

namespace Expr

/-! ### Trees without places -/

/-- A variable. -/
def named (name : String) : Expr :=
  .var ⟨name, .unknown⟩

/-- A number. -/
def number (value : Int64) : Expr :=
  .literal value .unknown

/-- A call. -/
def calling (callee : String) (arguments : List Expr) : Expr :=
  .call ⟨callee, .unknown⟩ arguments .unknown

theorem nodesOfAll_named (names : List String) :
    nodesOfAll (names.map named) = names.map named := by
  induction names with
  | nil => rfl
  | cons first rest induction =>
      simp only [List.map_cons, nodesOfAll, induction]
      rfl

theorem namesOfAll_named (names : List String) :
    namesOfAll (names.map named) = names := by
  induction names with
  | nil => rfl
  | cons first rest induction =>
      rw [List.map_cons, namesOfAll_cons, induction]
      rfl

theorem greatestInfixDepth_named (names : List String) :
    greatestInfixDepth (names.map named) ≤ 2 := by
  induction names with
  | nil => exact Nat.zero_le _
  | cons first rest induction => exact Nat.max_le.mpr ⟨Nat.le_refl _, induction⟩

theorem eraseSpans_calling (callee : String) (names : List String) :
    (calling callee (names.map named)).eraseSpans =
      calling callee (names.map named) := by
  have erased_eq : eraseSpans ∘ named = named := rfl
  rw [calling, eraseSpans, eraseAllSpans_eq_map, List.map_map, erased_eq]

theorem infixText_calling (callee : String) (names : List String) :
    (calling callee (names.map named)).infixText =
      callee ++ "(" ++ ",".intercalate names ++ ")" := by
  have texts_eq : infixText ∘ named = id := rfl
  rw [calling, infixText, infixTexts_eq_map, List.map_map, texts_eq,
    List.map_id]

theorem writable_calling {callee : String} {names : List String}
    (proper : ∀ name ∈ callee :: names, IsProperName name)
    (few : names.length ≤ Grammar.maximumArity) :
    (calling callee (names.map named)).Writable where
  names := by
    rw [calling, names_call, namesOfAll_named]
    exact proper
  permitted := by
    refine (permitted_call ..).mpr ⟨by rwa [List.length_map], ?_⟩
    intro argument given
    obtain ⟨name, _, rfl⟩ := List.mem_map.mp given
    exact permitted_var _
  literals value span isNode := by
    rw [calling, nodes, nodesOfAll_named, List.mem_cons] at isNode
    rcases isNode with isCall | isArgument
    · cases isCall
    · obtain ⟨name, _, impossible⟩ := List.mem_map.mp isArgument
      cases impossible

end Expr

namespace Grammar

/-- Tokens with the pieces of a tree are read as the tree if it is not deeper
than the room for nesting. -/
theorem parse_of_pieces {expression : Expr} {tokens : List Token}
    (writable : expression.Writable)
    (depth_le : expression.infixDepth ≤ maximumNesting)
    (pieces_eq : tokens.map Token.piece = expression.pieces) :
    ∃ read, Statement.parse tokens = .ok (.expression read) ∧
      read.eraseSpans = expression.eraseSpans := by
  obtain ⟨reread_eq, depth_eq⟩ := writable.reread_eq
  obtain ⟨read, read_eq, settled⟩ :=
    settles_parse_of_pieces writable.toIsProper pieces_eq
  rw [reread_eq] at read_eq
  rw [depth_eq] at settled
  rcases settled with ⟨-, parsed⟩ | ⟨tooDeep, -⟩
  · exact ⟨read, parsed, read_eq⟩
  · exact absurd depth_le tooDeep

end Grammar

/-- The functions that the prelude defines, where no stack is refused. -/
def preludeFunctions : FunctionTable :=
  (Session.loadPrelude { grants := fun _ => true }).2.functions

namespace Prelude

open Calculator.Expr

/-- The greatest common factor,
`gcf(a,b) = (rem = a%b) == 0?b:gcf(b,rem)`. -/
def gcf : FunctionDefinition where
  name := ⟨"gcf", .unknown⟩
  parameters := [⟨"a", .unknown⟩, ⟨"b", .unknown⟩]
  body := .conditional
    (.binary .equal
      (.assign (named "rem") (.binary .modulo (named "a") (named "b")))
      (number 0))
    (named "b") (calling "gcf" [named "b", named "rem"])

/-- The factorial, `fact(n) = n <= 1 ? 1 : n * fact(n-1)`. -/
def fact : FunctionDefinition where
  name := ⟨"fact", .unknown⟩
  parameters := [⟨"n", .unknown⟩]
  body := .conditional (.binary .lessEqual (named "n") (number 1)) (number 1)
    (.binary .times (named "n")
      (calling "fact" [.binary .minus (named "n") (number 1)]))

/-- The power, `pow(a,b)= b==0?1:a*pow(a,b-1)`. -/
def pow : FunctionDefinition where
  name := ⟨"pow", .unknown⟩
  parameters := [⟨"a", .unknown⟩, ⟨"b", .unknown⟩]
  body := .conditional (.binary .equal (named "b") (number 0)) (number 1)
    (.binary .times (named "a")
      (calling "pow" [named "a", .binary .minus (named "b") (number 1)]))

/-- The Fibonacci number, `fib(n) = n <2?n:fib(n-1)+fib(n-2)`. -/
def fib : FunctionDefinition where
  name := ⟨"fib", .unknown⟩
  parameters := [⟨"n", .unknown⟩]
  body := .conditional (.binary .less (named "n") (number 2)) (named "n")
    (.binary .plus
      (calling "fib" [.binary .minus (named "n") (number 1)])
      (calling "fib" [.binary .minus (named "n") (number 2)]))

/-- The functions that call themselves. -/
def recursive : List FunctionDefinition :=
  [gcf, fact, pow, fib]

theorem proper_recursive : ∀ function ∈ recursive,
    IsProperName function.name.text ∧
      function.arity ≤ Grammar.maximumArity := by
  decide

theorem eraseSpans_recursive : ∀ function ∈ recursive,
    function.eraseSpans = function := by
  simp only [recursive, List.forall_mem_cons]
  exact ⟨rfl, rfl, rfl, rfl, List.forall_mem_nil _⟩

/-- The prelude defines them as they are given here. -/
theorem find?_preludeFunctions : ∀ function ∈ recursive,
    ∃ held ∈ preludeFunctions.find? function.name.text,
      held.alike function = true := by
  decide +kernel

theorem find?_pair (a b : Int64) :
    let own := Environment.empty.bindAll ["a", "b"] [a, b]
    own.find? "a" = some a ∧ own.find? "b" = some b := by
  simp [Environment.bindAll]

end Prelude

namespace Session

variable {session : Session}

/-- The text of a tree that is not too deep is read as the tree. -/
theorem read_infixText (session : Session) {expression : Expr}
    (writable : expression.Writable)
    (depth_le : expression.infixDepth ≤ Grammar.maximumNesting) :
    ∃ read, session.read expression.infixText = .ok (.expression read) ∧
      read.eraseSpans = expression.eraseSpans := by
  have cuts := expression.cuts_infixText
    fun name named => (writable.names name named).identifier
  obtain ⟨tokens, scanned, pieces_eq⟩ := Token.scan_of_cuts cuts 1
  have begins := expression.beginsOperand_pieces
  rw [← pieces_eq, writable.isSigned_eq] at begins
  have continuing_eq :
      Token.continuing session.previous tokens = tokens := by
    cases tokens with
    | nil => rfl
    | cons first rest => exact if_pos (begins first.piece rfl)
  rw [read_of_scan session scanned, continuing_eq]
  exact Grammar.parse_of_pieces writable depth_le pieces_eq

/-! ### Sessions with the prelude -/

/-- Whether a text defines a function, which does not depend on the session. -/
def defines (text : String) : Bool :=
  match Session.read {} text with
  | .ok (.definition _) => true
  | _ => false

theorem exists_definition_of_defines {text : String}
    (isDefinition : defines text = true) :
    ∃ function, Session.read {} text = .ok (.definition function) := by
  rw [defines] at isDefinition
  split at isDefinition
  · next function read_eq => exact ⟨function, read_eq⟩
  · cases isDefinition

/-- All that the prelude does is to define functions. -/
theorem defines_preludeSources : preludeSources.all defines = true := by
  decide +kernel

/-- Definitions are not refused if their stacks are granted, and then those of
later requests are granted as well. -/
theorem exists_signatures_of_defines {sources : List String}
    (session : Session)
    (granted : session.granted = true)
    (definitions : sources.all defines = true) :
    ∃ signatures after, session.defineAll sources = (.ok signatures, after) ∧
      after.granted = true := by
  induction sources generalizing session with
  | nil => exact ⟨[], session, rfl, granted⟩
  | cons source sources induction =>
      rw [List.all_cons, Bool.and_eq_true] at definitions
      obtain ⟨function, read_eq⟩ := exists_definition_of_defines definitions.1
      obtain ⟨signatures, after, rest_eq, grantedAfter⟩ :=
        induction (session.define function) granted definitions.2
      refine ⟨function.signature :: signatures, after, ?_, grantedAfter⟩
      rw [Session.defineAll,
        evaluate_definition granted (read_eq_definition read_eq _), gather,
        rest_eq]
      rfl

/-- If the other session knows a function of that name, both know the same. -/
structure Follows (name : String) (session other : Session) : Prop where
  granted : session.granted = true
  grantedOther : other.granted = true
  agrees : other.functions.find? name = none ∨
    session.functions.find? name = other.functions.find? name

theorem Follows.defineAll {other : Session} {name : String}
    {sources : List String} (definitions : sources.all defines = true)
    (follows : session.Follows name other) :
    (session.defineAll sources).2.Follows name (other.defineAll sources).2 := by
  induction sources generalizing session other with
  | nil => exact follows
  | cons source sources induction =>
      rw [List.all_cons, Bool.and_eq_true] at definitions
      obtain ⟨function, read_eq⟩ := exists_definition_of_defines definitions.1
      rw [Session.defineAll, Session.defineAll,
        evaluate_definition follows.granted (read_eq_definition read_eq _),
        evaluate_definition follows.grantedOther
          (read_eq_definition read_eq _)]
      refine induction definitions.2
        ⟨follows.granted, follows.grantedOther, ?_⟩
      simp only [Session.define, FunctionTable.find?_define]
      split
      · exact .inr rfl
      · exact follows.agrees

/-- The session finds under a name what the prelude defines. -/
def HoldsPrelude (session : Session) (name : String) : Prop :=
  session.functions.find? name = preludeFunctions.find? name

/-- A session that loads the prelude holds all of its functions. -/
theorem holdsPrelude_loadPrelude (session : Session)
    (granted : session.granted = true) {name : String}
    (defined : preludeFunctions.contains name = true) :
    session.loadPrelude.2.HoldsPrelude name := by
  have start : session.Follows name { grants := fun _ => true } :=
    ⟨granted, rfl, .inl rfl⟩
  have follows := start.defineAll defines_preludeSources
  rw [FunctionTable.contains_eq_isSome, preludeFunctions, loadPrelude]
    at defined
  rw [HoldsPrelude, preludeFunctions, loadPrelude, loadPrelude]
  rcases follows.agrees with unknown | agrees
  · rw [unknown] at defined
    cases defined
  · exact agrees

theorem HoldsPrelude.find? {function : FunctionDefinition}
    (recursive : function ∈ Prelude.recursive)
    (holds : session.HoldsPrelude function.name.text) :
    session.functions.eraseSpans.find? function.name.text = some function := by
  obtain ⟨held, held_eq, alike⟩ :=
    Prelude.find?_preludeFunctions function recursive
  rw [FunctionTable.find?_eraseSpans, holds, held_eq, Option.map_some,
    (FunctionDefinition.alike_iff held function).mp alike,
    Prelude.eraseSpans_recursive function recursive]

/-! ### Answers to calls -/

/-- The answer to an expression with a value, and the session after it if no
variable has changed. -/
def yields (session : Session) (value : Int64) :
    Except Error Outcome × Session :=
  (.ok (.value value), { session with previous := value })

/-- The answer to an expression with too many calls of a function. -/
def exceeds (session : Session) (callee : String) :
    Except Error Outcome × Session :=
  (.error (.ofRuntime
    (.callDepthExceeded callee session.limits.maximumCallDepth)), session)

/-- The answer to an expression that ends like this and changes no variable.
The outcome does not tell the place of an error. -/
inductive Concludes (session : Session) :
    Except RuntimeError Int64 → Except Error Outcome × Session → Prop
  | value (value : Int64) : Concludes session (.ok value) (session.yields value)
  | error {error outcome : RuntimeError} (same : error.eraseSpan = outcome) :
      Concludes session (.error outcome) (.error (.ofRuntime error), session)

namespace Concludes

variable {answer : Except Error Outcome × Session}

theorem eq_yields {value : Int64}
    (concludes : Concludes session (.ok value) answer) :
    answer = session.yields value := by
  cases concludes
  rfl

theorem eq_exceeds {callee : String}
    (concludes : Concludes session
      (.error (.callDepthExceeded callee session.limits.maximumCallDepth))
      answer) :
    answer = session.exceeds callee := by
  cases concludes with
  | @error error _ same =>
      cases error with
      | callDepthExceeded other bound =>
          cases same
          rfl
      | _ => cases same

theorem exists_error {outcome : RuntimeError}
    (concludes : Concludes session (.error outcome) answer) :
    ∃ error : RuntimeError, answer = (.error (.ofRuntime error), session) ∧
      error.kind = outcome.kind := by
  cases concludes with
  | @error error _ same =>
      exact ⟨error, rfl, by rw [← same, RuntimeError.kind_eraseSpan]⟩

end Concludes

open Evaluator in
/-- A request that calls a function with bound variables concludes as the
function replies to their values. -/
theorem concludes_call {callee : String} {names : List String}
    {values : List Int64} {function : FunctionDefinition} {room : Nat}
    (granted : session.granted = true)
    (nesting_eq : session.limits.maximumNesting = room + 2)
    (found : session.functions.eraseSpans.find? callee = some function)
    (called : function.name.text = callee)
    (proper : ∀ name ∈ callee :: names, IsProperName name)
    (bound : List.Forall₂
      (fun name value => session.environment.find? name = some value) names
      values)
    (fits : values.length ≤ function.arity)
    (few : function.arity ≤ Grammar.maximumArity) :
    Concludes session
      (reply session.functions.eraseSpans session.limits (room + 1) 0 function
        values)
      (session.evaluate (callee ++ "(" ++ ",".intercalate names ++ ")")) := by
  have length_le : names.length ≤ Grammar.maximumArity :=
    bound.length_eq ▸ Nat.le_trans fits few
  have depth_le := Expr.greatestInfixDepth_named names
  obtain ⟨read, read_eq, erased_eq⟩ := session.read_infixText
    (Expr.writable_calling proper length_le) (by
      simp only [Expr.calling, Expr.infixDepth, Grammar.maximumNesting]
      omega)
  have arguments : List.Forall₂ (fun argument value =>
      Leads session.functions.eraseSpans session.limits (room + 1) 0
        session.environment argument (.ok value) session.environment)
      (names.map Expr.named) values :=
    List.forall₂_map_left_iff.mpr (bound.imp fun _ _ found => .var found)
  have leads : Leads session.functions.eraseSpans session.limits (room + 2) 0
      session.environment (Expr.calling callee (names.map Expr.named))
      (reply session.functions.eraseSpans session.limits (room + 1) 0 function
        values) session.environment :=
    .call found called fits arguments
  have erased := @meaning_eraseSpans session.functions session.limits (room + 2)
    0 read session.environment
  rw [erased_eq, Expr.eraseSpans_calling, leads] at erased
  rw [← Expr.infixText_calling, evaluate_of_read granted read_eq]
  simp only [evaluate_fresh, nesting_eq]
  generalize reply session.functions.eraseSpans session.limits (room + 1) 0
    function values = outcome at erased ⊢
  generalize meaning session.functions session.limits (room + 2) 0 read
    session.environment = result at erased ⊢
  -- What remains is to compare the two ends, one of them without its place.
  cases result with
  | ok value after =>
      cases outcome <;> cases erased
      exact .value value
  | error error after =>
      cases outcome <;> cases erased
      exact .error rfl

/-- So does a request that calls a recursive function of the prelude. -/
theorem concludes_recursive {names : List String} {values : List Int64}
    {function : FunctionDefinition} {room : Nat}
    (granted : session.granted = true)
    (nesting_eq : session.limits.maximumNesting = room + 2)
    (recursive : function ∈ Prelude.recursive)
    (holds : session.HoldsPrelude function.name.text)
    (proper : ∀ name ∈ names, IsProperName name)
    (bound : List.Forall₂
      (fun name value => session.environment.find? name = some value) names
      values)
    (fits : values.length ≤ function.arity) :
    Concludes session
      (Evaluator.reply session.functions.eraseSpans session.limits (room + 1) 0
        function values)
      (session.evaluate
        (function.name.text ++ "(" ++ ",".intercalate names ++ ")")) := by
  obtain ⟨properCallee, few⟩ := Prelude.proper_recursive function recursive
  exact concludes_call granted nesting_eq (holds.find? recursive) rfl
    (List.forall_mem_cons.mpr ⟨properCallee, proper⟩) bound fits few

end Session
end Calculator
