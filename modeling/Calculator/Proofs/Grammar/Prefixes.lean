import Calculator.Proofs.Grammar.Acceptance
import Calculator.Proofs.Token.Shape

/-!
# Errors at the first impossible token

A request that is refused for a misplaced token is refused at the first token
that no sentence goes on with.  What a step reads is the front of something that
its rule allows, and what it does about it depends on no token after the next
one.  So the tokens in front of an error can be completed to a sentence, and
every list of tokens that begins in the same way up to the misplaced one ends in
the same error, as no sentence does.
-/

namespace Calculator

/-- Some token of a kind. -/
def TokenKind.sample : TokenKind → Token
  | .name => ⟨.name, "x", .unknown⟩
  | .number => ⟨.number, "0", .unknown⟩
  | kind => ⟨kind, String.ofList ((spelling? kind).getD []), .unknown⟩

@[simp] theorem TokenKind.kind_sample (kind : TokenKind) :
    kind.sample.kind = kind := by
  cases kind <;> rfl

namespace Grammar

theorem isName_sample : IsName (TokenKind.sample .name) :=
  ⟨rfl, by decide⟩

/-- The error points at the next token, or says that there is none. -/
inductive PointsAt : SyntaxError → List Token → Prop
  | finish (wanted : String) : PointsAt (.unexpectedEnd wanted) []
  | expected (token : Token) (rest : List Token) (wanted : String) :
      PointsAt (.expected token.span wanted token.lexeme) (token :: rest)
  | unexpected (token : Token) (rest : List Token) :
      PointsAt (.unexpectedToken token.span token.lexeme) (token :: rest)
  | reserved (token : Token) (rest : List Token) :
      PointsAt (.reservedWord token.span token.lexeme) (token :: rest)

/-- What may come after tokens of the first kind to make tokens of the second.
-/
def After (first whole : List Token → Prop) (later : List Token) : Prop :=
  ∀ tokens, first tokens → whole (tokens ++ later)

theorem After.nil {first whole : List Token → Prop}
    (implies : ∀ tokens, first tokens → whole tokens) :
    After first whole [] := by
  intro tokens complete
  rw [List.append_nil]
  exact implies tokens complete

/-- Exactly one token, and one of those that are accepted. -/
def Single (accepts : Token → Prop) (tokens : List Token) : Prop :=
  ∃ token, tokens = [token] ∧ accepts token

theorem head?_append_congr {other rest : List Token}
    (same : other.head? = rest.head?) (before : List Token) :
    (before ++ other).head? = (before ++ rest).head? := by
  cases before with
  | nil => exact same
  | cons first later => rfl

theorem eq_cons_of_head? {other rest : List Token} {token : Token}
    (same : other.head? = (token :: rest).head?) :
    ∃ later, other = token :: later :=
  List.head?_eq_some_iff.mp same

theorem eq_nil_of_head? {other : List Token}
    (same : other.head? = ([] : List Token).head?) : other = [] :=
  List.head?_eq_none_iff.mp same

namespace Step

variable {Result Result' Choice : Type}

/-- What a step that is to read tokens of the kind `goal` may do: read such
tokens, or stop at a token in front of which they can still be completed, or
fail for another reason than a misplaced token.  In the first two cases it does
the same on all tokens that begin alike up to the next token. -/
inductive Tracks (goal : List Token → Prop) (step : Step Result)
    (tokens : List Token) : Prop
  | reads (before rest : List Token) (result : Result)
      (tokens_eq : tokens = before ++ rest) (complete : goal before)
      (alike : ∀ other, other.head? = rest.head? →
        step (before ++ other) = .ok (result, other))
  | stops (before rest more : List Token) (error : SyntaxError)
      (tokens_eq : tokens = before ++ rest) (points : PointsAt error rest)
      (completed : goal (before ++ more))
      (alike : ∀ other, other.head? = rest.head? →
        step (before ++ other) = .error error)
  | refuses (error : SyntaxError) (failed : step tokens = .error error)
      (lenient : error.isMisplaced = false)

namespace Tracks

variable {goal goal' first : List Token → Prop} {step step' : Step Result}
  {tokens : List Token}

theorem weaken (implies : ∀ read, goal read → goal' read)
    (tracks : Tracks goal step tokens) : Tracks goal' step tokens := by
  cases tracks with
  | reads before rest result tokens_eq complete alike =>
      exact .reads before rest result tokens_eq (implies _ complete) alike
  | stops before rest more error tokens_eq points completed alike =>
      exact .stops before rest more error tokens_eq points
        (implies _ completed) alike
  | refuses error failed lenient => exact .refuses error failed lenient

/-- A step may be replaced by one that does the same wherever the next token is
the same. -/
theorem congr (tracks : Tracks goal step tokens)
    (same : ∀ other, other.head? = tokens.head? → step' other = step other) :
    Tracks goal step' tokens := by
  cases tracks with
  | reads before rest result tokens_eq complete alike =>
      refine .reads before rest result tokens_eq complete fun other next => ?_
      rw [same _ (tokens_eq ▸ head?_append_congr next _), alike other next]
  | stops before rest more error tokens_eq points completed alike =>
      refine .stops before rest more error tokens_eq points completed
        fun other next => ?_
      rw [same _ (tokens_eq ▸ head?_append_congr next _), alike other next]
  | refuses error failed lenient =>
      exact .refuses error ((same tokens rfl).trans failed) lenient

/-- A step that takes the first token in any case. -/
theorem cons {token : Token} {rest : List Token}
    (tracks : Tracks (fun read => goal (token :: read)) step rest)
    (same : ∀ other, step' (token :: other) = step other) :
    Tracks goal step' (token :: rest) := by
  cases tracks with
  | reads before rest' result tokens_eq complete alike =>
      refine .reads (token :: before) rest' result (by rw [tokens_eq]; rfl)
        complete fun other next => ?_
      rw [List.cons_append, same, alike other next]
  | stops before rest' more error tokens_eq points completed alike =>
      refine .stops (token :: before) rest' more error (by rw [tokens_eq]; rfl)
        points completed fun other next => ?_
      rw [List.cons_append, same, alike other next]
  | refuses error failed lenient =>
      exact .refuses error ((same rest).trans failed) lenient

theorem pure (result : Result) (complete : goal []) :
    Tracks goal (pure result) tokens :=
  .reads [] tokens result rfl complete fun _ _ => rfl

/-- The next token is already misplaced. -/
theorem stop {error : SyntaxError} {more : List Token}
    (points : PointsAt error tokens) (completed : goal more)
    (alike : ∀ other, other.head? = tokens.head? → step other = .error error) :
    Tracks goal step tokens :=
  .stops [] tokens more error rfl points completed alike

theorem lift {outcome : Except SyntaxError Result} (lenient : Lenient outcome)
    (complete : goal []) : Tracks goal (lift outcome) tokens := by
  cases outcome with
  | error error => exact .refuses error rfl (lenient error rfl)
  | ok result => exact .pure result complete

theorem lift_bind {outcome : Except SyntaxError Result}
    {next : Result → Step Result'} (lenient : Lenient outcome)
    (later : ∀ result, Tracks goal (next result) tokens) :
    Tracks goal (Step.lift outcome >>= next) tokens := by
  cases outcome with
  | error error => exact .refuses error rfl (lenient error rfl)
  | ok result => exact later result

/-- One step after the other.  What the first reads must leave something that
completes the whole, since the error may come before the second. -/
theorem bind {next : Result → Step Result'} (more : List Token)
    (tracks : Tracks first step tokens) (completed : After first goal more)
    (later : ∀ result rest, step tokens = .ok (result, rest) →
      Tracks (After first goal) (next result) rest) :
    Tracks goal (step >>= next) tokens := by
  cases tracks with
  | reads before rest result tokens_eq complete alike =>
      have continued (other : List Token) (same : other.head? = rest.head?) :
          (step >>= next) (before ++ other) = next result other := by
        rw [bind_apply, alike other same, ok_bind]
      have taken : step tokens = .ok (result, rest) := by
        rw [tokens_eq, alike rest rfl]
      cases later result rest taken with
      | reads before' rest' result' rest_eq complete' alike' =>
          refine .reads (before ++ before') rest' result' ?_
            (complete' before complete) fun other same => ?_
          · rw [tokens_eq, rest_eq, List.append_assoc]
          · rw [List.append_assoc,
              continued _ (rest_eq ▸ head?_append_congr same before'),
              alike' other same]
      | stops before' rest' more' error rest_eq points completed' alike' =>
          refine .stops (before ++ before') rest' more' error ?_ points ?_
            fun other same => ?_
          · rw [tokens_eq, rest_eq, List.append_assoc]
          · rw [List.append_assoc]
            exact completed' before complete
          · rw [List.append_assoc,
              continued _ (rest_eq ▸ head?_append_congr same before'),
              alike' other same]
      | refuses error failed lenient =>
          refine .refuses error ?_ lenient
          rw [tokens_eq, continued rest rfl, failed]
  | stops before rest more' error tokens_eq points completed' alike =>
      refine .stops before rest (more' ++ more) error tokens_eq points ?_
        fun other same => ?_
      · rw [← List.append_assoc]
        exact completed _ completed'
      · rw [bind_apply, alike other same]
        rfl
  | refuses error failed lenient =>
      refine .refuses error ?_ lenient
      rw [bind_apply, failed]
      rfl

/-- A step that takes one token, and another step after it. -/
theorem bind_single {accepts : Token → Prop} {next : Result → Step Result'}
    (more : List Token) (tracks : Tracks (Single accepts) step tokens)
    (completed : ∀ token, accepts token → goal (token :: more))
    (later : ∀ result rest, step tokens = .ok (result, rest) →
      Tracks (fun read => ∀ token, accepts token → goal (token :: read))
        (next result) rest) :
    Tracks goal (step >>= next) tokens := by
  refine tracks.bind more ?_ fun result rest read =>
    (later result rest read).weaken ?_
  · rintro _ ⟨token, rfl, accepted⟩
    exact completed token accepted
  · rintro read whole _ ⟨token, rfl, accepted⟩
    exact whole token accepted

/-- A step after which nothing else is read. -/
theorem bind_silent {next : Result → Step Result'}
    (tracks : Tracks first step tokens)
    (implies : ∀ read, first read → goal read)
    (silent : ∀ result rest goal', goal' [] → Tracks goal' (next result) rest) :
    Tracks goal (step >>= next) tokens :=
  tracks.bind [] (.nil implies) fun result rest _ =>
    silent result rest _ (.nil implies)

theorem expect (kind : TokenKind) (wanted : String) :
    Tracks (Single (·.kind = kind)) (expect kind wanted) tokens := by
  have completed : Single (·.kind = kind) [kind.sample] :=
    ⟨kind.sample, rfl, kind.kind_sample⟩
  cases tokens with
  | nil =>
      refine .stop (.finish wanted) completed fun other next => ?_
      rw [eq_nil_of_head? next, expect_nil]
  | cons token rest =>
      by_cases same : token.kind = kind
      · refine .reads [token] rest token rfl ⟨token, rfl, same⟩
          fun other _ => ?_
        rw [List.singleton_append, expect_cons, if_pos same]
      · refine .stop (.expected token rest wanted) completed
          fun other next => ?_
        obtain ⟨later, rfl⟩ := eq_cons_of_head? next
        rw [expect_cons, if_neg same]

theorem branch {choice? : TokenKind → Option Choice} {absent : Step Result}
    {present : Choice → Token → Step Result}
    (without : Tracks goal absent tokens)
    (chosen : ∀ choice token rest, tokens = token :: rest →
      choice? token.kind = some choice →
        Tracks (fun read => goal (token :: read)) (present choice token) rest) :
    Tracks goal (branch choice? absent present) tokens := by
  cases tokens with
  | nil =>
      refine without.congr fun other next => ?_
      rw [eq_nil_of_head? next]
      rfl
  | cons token rest =>
      cases found : choice? token.kind with
      | none =>
          refine without.congr fun other next => ?_
          obtain ⟨later, rfl⟩ := eq_cons_of_head? next
          simp only [Step.branch, found]
      | some choice =>
          refine (chosen choice token rest rfl found).cons fun other => ?_
          simp only [Step.branch, found]

theorem branch_only {kind : TokenKind} {absent : Step Result}
    {present : Unit → Token → Step Result} (without : Tracks goal absent tokens)
    (chosen : ∀ token rest, tokens = token :: rest → token.kind = kind →
      Tracks (fun read => goal (token :: read)) (present () token) rest) :
    Tracks goal (Step.branch (only kind) absent present) tokens := by
  refine .branch without fun _ token rest tokens_eq found => ?_
  refine chosen token rest tokens_eq ?_
  unfold only at found
  split at found
  · assumption
  · cases found

theorem peek {kind : TokenKind} {present absent : Step Result}
    (withNext : nextKind? tokens = some kind → Tracks goal present tokens)
    (without : Tracks goal absent tokens) :
    Tracks goal (peek kind present absent) tokens := by
  have nextKind?_congr (other : List Token)
      (next : other.head? = tokens.head?) :
      nextKind? other = nextKind? tokens := by
    rw [nextKind?, next, nextKind?]
  by_cases isNext : nextKind? tokens = some kind
  · refine (withNext isNext).congr fun other next => ?_
    rw [Step.peek, nextKind?_congr other next, if_pos isNext]
  · refine without.congr fun other next => ?_
    rw [Step.peek, nextKind?_congr other next, if_neg isNext]

end Tracks
end Step

open Step (Tracks Lenient)

/-! ### Expressions -/

theorem phrase_of_number {token : Token} (isNumber : token.kind = .number) :
    Phrase .assign [token] :=
  .value (.test (.operand (.operand (.operand (.number isNumber)))))

/-- A rule that reads phrases of a category. -/
def TracksPhrases (category : Category) (rule : Rule) : Prop :=
  ∀ tokens, Tracks (Phrase category) (step rule) tokens

theorem tracks_chainStep {level : Level} {operandRule : Rule}
    (operand : TracksPhrases level.operand operandRule) (left : Measured)
    (tokens : List Token) :
    Tracks (After (Phrase level.operand) (Phrase (.chain level)))
      (chainStep level.operator? operandRule left) tokens := by
  have ended : After (Phrase level.operand) (Phrase (.chain level)) [] :=
    .nil fun _ => .operand
  induction size : tokens.length using Nat.strongRecOn
    generalizing left tokens with
  | _ length induction =>
  rw [chainStep_eq]
  refine .branch (.pure left ended) fun operator sign rest tokens_eq found => ?_
  -- What comes after the operator is a chain again.
  refine .weaken (fun read (later : Phrase (.chain level) read) before first =>
    .operation first (Level.operator?_eq_some_iff.mp found) later) ?_
  refine .bind [] (operand rest) ended fun right rest' read => ?_
  refine .lift_bind (lenient_grow _ _) fun height => ?_
  have shorter : rest'.length < length := by
    have := rest_lt_of_step read
    rw [← size, tokens_eq, List.length_cons]
    omega
  exact induction _ shorter _ rest' rfl

theorem tracks_chain {level : Level} {operandRule : Rule}
    (operand : TracksPhrases level.operand operandRule) :
    TracksPhrases (.chain level) (chain level.operator? operandRule) := by
  intro tokens
  rw [step_chain]
  exact .bind [] (operand tokens) (.nil fun _ => .operand) fun left rest _ =>
    tracks_chainStep operand left rest

theorem tracks_product {factorRule : Rule}
    (factor : TracksPhrases .factor factorRule) :
    TracksPhrases (.chain .product) (product factorRule) :=
  @tracks_chain .product factorRule factor

theorem tracks_comparison {factorRule : Rule}
    (factor : TracksPhrases .factor factorRule) :
    TracksPhrases (.chain .comparison) (comparison factorRule) :=
  @tracks_chain .comparison _ (@tracks_chain .sum _ (tracks_product factor))

section Rules

variable {assignRule factorRule : Rule}
  (assign : TracksPhrases .assign assignRule)
  (factor : TracksPhrases .factor factorRule)
include assign

theorem tracks_conditionalStep (test : Measured) (tokens : List Token) :
    Tracks (After (Phrase .conditional) (Phrase .conditional))
      (conditionalStep assignRule test) tokens := by
  have ended : After (Phrase .conditional) (Phrase .conditional) [] :=
    .nil fun _ phrase => phrase
  induction size : tokens.length using Nat.strongRecOn
    generalizing test tokens with
  | _ length induction =>
  rw [conditionalStep_eq]
  refine .branch_only (.pure test ended) fun question rest tokens_eq asks => ?_
  refine .bind [TokenKind.colon.sample, TokenKind.number.sample] (assign rest)
    ?_ fun onTrue afterTrue readTrue => ?_
  · intro onTrue whenTrue test tested
    exact .branches tested asks whenTrue rfl (phrase_of_number rfl)
  refine .bind_single [TokenKind.number.sample] (.expect .colon _) ?_
    fun colon afterColon readColon => ?_
  · intro colon separates onTrue whenTrue test tested
    exact .branches tested asks whenTrue separates (phrase_of_number rfl)
  refine .bind [] (assign afterColon) (.nil ?_)
    fun onFalse rest' readFalse => ?_
  · intro onFalse whenFalse colon separates onTrue whenTrue test tested
    exact .branches tested asks whenTrue separates whenFalse
  refine .lift_bind (lenient_grow _ _) fun height => ?_
  have shorter : rest'.length < length := by
    have := rest_lt_of_step readTrue
    have := Step.rest_lt_of_expect readColon
    have := rest_lt_of_step readFalse
    rw [← size, tokens_eq, List.length_cons]
    omega
  refine .weaken ?_ (induction _ shorter _ rest' rfl)
  intro read goesOn onFalse whenFalse colon separates onTrue whenTrue test
    tested
  have whole := goesOn _
    (.branches tested asks whenTrue separates whenFalse)
  simpa only [List.append_assoc, List.cons_append, List.nil_append] using whole

theorem tracks_argumentsStep (callee : Name) (before : MeasuredAll)
    (tokens : List Token) :
    Tracks ArgumentListPhrase (argumentsStep assignRule callee before)
      tokens := by
  have ended : After (Phrase .assign) ArgumentListPhrase [] :=
    .nil fun _ => .last
  induction size : tokens.length using Nat.strongRecOn
    generalizing before tokens with
  | _ length induction =>
  rw [argumentsStep_eq]
  refine .lift_bind (lenient_admitArgument _ _) fun _ => ?_
  refine .bind [] (assign tokens) ended fun next afterNext read => ?_
  refine .branch_only (.pure _ ended) fun comma rest tokens_eq separates => ?_
  have shorter : rest.length < length := by
    have := rest_lt_of_step read
    rw [tokens_eq, List.length_cons] at this
    omega
  exact .weaken (fun read later argument phrase =>
    .more phrase separates later) (induction _ shorter _ rest rfl)

theorem tracks_call {callee opening : Token} (isName : IsName callee)
    (opens : opening.kind = .leftParenthesis) (name : Name)
    (tokens : List Token) :
    Tracks (fun read => Phrase .factor (callee :: opening :: read))
      (step (call assignRule name)) tokens := by
  rw [step_call]
  have given : Tracks ArgumentsPhrase
      (Step.peek .rightParenthesis (pure ⟨[], 0⟩)
        (argumentsStep assignRule name ⟨[], 0⟩)) tokens :=
    .peek (fun _ => .pure _ .none)
      (.weaken (fun _ => .some) (tracks_argumentsStep assign name _ tokens))
  refine .bind [TokenKind.rightParenthesis.sample] given ?_
    fun given afterGiven _ => ?_
  · intro given arguments
    exact .call isName opens arguments rfl
  refine .bind_silent (.expect .rightParenthesis _) ?_ fun _ _ _ complete =>
    .lift_bind (lenient_grow _ _) fun height => .pure _ complete
  rintro _ ⟨closing, rfl, closes⟩ given arguments
  exact .call isName opens arguments closes

include factor

theorem tracks_conditional :
    TracksPhrases .conditional (conditional assignRule factorRule) := by
  intro tokens
  rw [step_conditional]
  refine .bind [] (tracks_comparison factor tokens) (.nil fun _ => .test)
    fun test rest _ => ?_
  exact .weaken (fun read goesOn tokens phrase => goesOn tokens (.test phrase))
    (tracks_conditionalStep assign test rest)

theorem tracks_assignment :
    TracksPhrases .assign (assignment assignRule factorRule) := by
  intro tokens
  have ended : After (Phrase .conditional) (Phrase .assign) [] :=
    .nil fun _ => .value
  rw [step_assignment]
  refine .bind [] (tracks_conditional assign factor tokens) ended
    fun target afterTarget _ => ?_
  refine .branch_only (.pure _ ended) fun sign rest _ isSign => ?_
  refine .bind_silent (assign rest) ?_ fun _ _ _ =>
    .lift (lenient_store _ _)
  intro value stored target assigned
  exact .store assigned isSign stored

theorem tracks_primary :
    TracksPhrases .factor (primary assignRule factorRule) := by
  intro tokens
  have completed : Phrase .factor [TokenKind.number.sample] := .number rfl
  cases tokens with
  | nil =>
      refine .stop (.finish "expression") completed fun other next => ?_
      rw [eq_nil_of_head? next]
      rfl
  | cons token rest =>
      have proceed (tracks : Tracks (fun read => Phrase .factor (token :: read))
          (operandStep assignRule factorRule token) rest) :
          Tracks (Phrase .factor) (step (primary assignRule factorRule))
            (token :: rest) :=
        tracks.cons fun other => step_primary _ _ token other
      have reject {error : SyntaxError}
          (points : PointsAt error (token :: rest))
          (fails : ∀ other,
            operandStep assignRule factorRule token other = .error error) :
          Tracks (Phrase .factor) (step (primary assignRule factorRule))
            (token :: rest) := by
        refine .stop points completed fun other next => ?_
        obtain ⟨later, rfl⟩ := eq_cons_of_head? next
        rw [step_primary, fails]
      cases kind_eq : token.kind with
      | number =>
          apply proceed
          simp only [operandStep, kind_eq]
          exact .pure _ (.number kind_eq)
      | leftParenthesis =>
          apply proceed
          simp only [operandStep, kind_eq]
          refine .bind [TokenKind.rightParenthesis.sample] (assign rest) ?_
            fun inner afterInner _ => ?_
          · intro inside phrase
            exact .parentheses kind_eq phrase rfl
          refine .bind_silent (.expect .rightParenthesis _) ?_
            fun _ _ _ => .pure _
          rintro _ ⟨closing, rfl, closes⟩ inside phrase
          exact .parentheses kind_eq phrase closes
      | minus =>
          apply proceed
          simp only [operandStep, kind_eq]
          exact .bind_silent (tracks_product factor rest)
            (fun _ => .negation kind_eq) fun _ _ _ complete =>
              .lift_bind (lenient_grow _ _) fun height => .pure _ complete
      | name =>
          by_cases reserved : token.lexeme = definitionKeyword
          · refine reject (.reserved token rest) fun other => ?_
            simp only [operandStep, kind_eq, nameOf, reserved, if_true]
            rfl
          · have isName : IsName token := ⟨kind_eq, reserved⟩
            apply proceed
            simp only [operandStep, kind_eq]
            refine .lift_bind (lenient_nameOf isName) fun name => ?_
            exact .branch_only (.pure _ (.name isName)) fun _ afterOpening _
              opens => tracks_call assign isName opens name afterOpening
      | _ =>
          refine reject (.expected token rest "expression") fun other => ?_
          simp only [operandStep, kind_eq]
          rfl

end Rules

theorem tracks_exhausted (category : Category) :
    TracksPhrases category exhausted :=
  fun _ => .refuses _ rfl rfl

mutual

theorem tracks_assign (room : Nat) : TracksPhrases .assign (assign room) := by
  cases room with
  | zero =>
      rw [assign]
      exact tracks_exhausted .assign
  | succ room =>
      rw [assign]
      exact tracks_assignment (tracks_assign room) (tracks_factor room)

theorem tracks_factor (room : Nat) : TracksPhrases .factor (factor room) := by
  cases room with
  | zero =>
      rw [factor]
      exact tracks_exhausted .factor
  | succ room =>
      rw [factor]
      exact tracks_primary (tracks_assign room) (tracks_factor room)

end

/-! ### Requests -/

theorem Step.Tracks.name (wanted : String) (tokens : List Token) :
    Tracks (Single IsName) (Step.name wanted) tokens := by
  have completed : Single IsName [TokenKind.name.sample] :=
    ⟨_, rfl, isName_sample⟩
  cases tokens with
  | nil =>
      refine .stop (.finish wanted) completed fun other next => ?_
      rw [eq_nil_of_head? next]
      rfl
  | cons token rest =>
      by_cases isKind : token.kind = .name
      · by_cases reserved : token.lexeme = definitionKeyword
        · refine .stop (.reserved token rest) completed fun other next => ?_
          obtain ⟨later, rfl⟩ := eq_cons_of_head? next
          rw [Step.name, Step.bind_apply, Step.expect_cons, if_pos isKind,
            ok_bind, nameOf, if_pos reserved]
          rfl
        · refine .reads [token] rest token.asName rfl
            ⟨token, rfl, isKind, reserved⟩ fun other _ => ?_
          rw [List.singleton_append, Step.name, Step.bind_apply,
            Step.expect_cons, if_pos isKind, ok_bind,
            nameOf_of_isName ⟨isKind, reserved⟩]
          rfl
      · refine .stop (.expected token rest wanted) completed
          fun other next => ?_
        obtain ⟨later, rfl⟩ := eq_cons_of_head? next
        rw [Step.name, Step.bind_apply, Step.expect_cons, if_neg isKind]
        rfl

theorem tracks_parametersStep (function : Name) (before : List Name)
    (tokens : List Token) :
    Tracks NameListPhrase (parametersStep function before) tokens := by
  have ended (token : Token) (isName : IsName token) :
      NameListPhrase [token] :=
    .last isName
  induction size : tokens.length using Nat.strongRecOn
    generalizing before tokens with
  | _ length induction =>
  rw [parametersStep_eq]
  refine .bind_single [] (.name _ tokens) ended
    fun parameter afterName read => ?_
  refine .lift_bind (lenient_admitParameter _ _ _) fun longer => ?_
  refine .branch_only (.pure _ ended) fun comma rest tokens_eq separates => ?_
  have shorter : rest.length < length := by
    have := Step.rest_lt_of_name read
    rw [tokens_eq, List.length_cons] at this
    omega
  exact .weaken (fun later names token isName => .more isName separates names)
    (induction _ shorter longer rest rfl)

theorem tracks_parameters (function : Name) (tokens : List Token) :
    Tracks ParametersPhrase
      (Step.peek .rightParenthesis (pure []) (parametersStep function []))
      tokens :=
  .peek (fun _ => .pure _ .none)
    (.weaken (fun _ => .some) (tracks_parametersStep function [] tokens))

theorem tracks_definitionStep {keyword : Token}
    (isKeyword : IsKeyword keyword) (tokens : List Token) :
    Tracks (fun read => Sentence (keyword :: read)) definitionStep tokens := by
  let opening := TokenKind.leftParenthesis.sample
  let closing := TokenKind.rightParenthesis.sample
  let sign := TokenKind.equal.sample
  let number := TokenKind.number.sample
  have body : Phrase .assign [number] := phrase_of_number rfl
  refine .bind_single [opening, closing, sign, number] (.name _ _) ?_
    fun function afterName _ => ?_
  · intro function isName
    exact .definition isKeyword isName rfl .none rfl rfl body
  refine .bind_single [closing, sign, number] (.expect .leftParenthesis _) ?_
    fun _ afterOpening _ => ?_
  · intro opening opens function isName
    exact .definition isKeyword isName opens .none rfl rfl body
  refine .bind [closing, sign, number]
    (tracks_parameters function afterOpening) ?_ fun names _ _ => ?_
  · intro parameters declares opening opens function isName
    exact .definition isKeyword isName opens declares rfl rfl body
  refine .bind_single [sign, number] (.expect .rightParenthesis _) ?_
    fun _ _ _ => ?_
  · intro closing closes parameters declares opening opens function isName
    exact .definition isKeyword isName opens declares closes rfl body
  refine .bind_single [number] (.expect .equal _) ?_ fun _ afterSign _ => ?_
  · intro sign isSign closing closes parameters declares opening opens function
      isName
    exact .definition isKeyword isName opens declares closes isSign body
  refine .bind_silent (tracks_assign maximumNesting afterSign) ?_
    fun _ _ _ => .pure _
  intro body yields sign isSign closing closes parameters declares opening opens
    function isName
  exact .definition isKeyword isName opens declares closes isSign yields

theorem tracks_statementStep (tokens : List Token) :
    Tracks Sentence statementStep tokens := by
  have completed : Sentence [TokenKind.number.sample] :=
    .expression (phrase_of_number rfl)
  cases tokens with
  | nil =>
      refine .stop (.finish "expression") completed fun other next => ?_
      rw [eq_nil_of_head? next]
      rfl
  | cons token rest =>
      by_cases isKeyword : token.isDefinitionKeyword = true
      · have tracks := tracks_definitionStep
          (isDefinitionKeyword_iff.mp isKeyword) rest
        refine .cons (.bind_silent tracks (fun _ sentence => sentence)
          fun function _ _ => .pure (Statement.definition function))
          fun other => ?_
        rw [statementStep, if_pos isKeyword]
      · refine .congr (.bind_silent
          (tracks_assign maximumNesting (token :: rest))
          (fun _ => .expression) fun value _ _ =>
            .pure (Statement.expression value.expression))
          fun other next => ?_
        obtain ⟨later, rfl⟩ := eq_cons_of_head? next
        rw [statementStep, if_neg isKeyword]
        rfl

theorem tracks_finish (tokens : List Token) :
    Tracks (· = []) finish tokens := by
  cases tokens with
  | nil =>
      refine .reads [] [] () rfl rfl fun other next => ?_
      rw [eq_nil_of_head? next]
      rfl
  | cons token rest =>
      refine .stop (.unexpected token rest) rfl fun other next => ?_
      obtain ⟨later, rfl⟩ := eq_cons_of_head? next
      rfl

theorem tracks_requestStep (tokens : List Token) :
    Tracks Sentence requestStep tokens := by
  refine .bind [] (tracks_statementStep tokens)
    (.nil fun _ sentence => sentence) fun statement rest _ => ?_
  refine .bind_silent (tracks_finish rest) ?_ fun _ _ _ => .pure _
  rintro _ rfl
  exact .nil fun _ sentence => sentence

/-! ### Errors -/

/-- What is refused for a misplaced token is no sentence. -/
theorem not_sentence_of_misplaced {tokens : List Token} {error : SyntaxError}
    (failed : requestStep tokens = .error error)
    (misplaced : error.isMisplaced = true) : ¬Sentence tokens := by
  intro sentence
  rcases sentence.passes with ⟨statement, read⟩ | ⟨other, failed', lenient⟩
  · rw [failed] at read
    cases read
  · rw [failed] at failed'
    cases failed'
    rw [misplaced] at lenient
    cases lenient

/-- The tokens in front of a misplaced one can be completed to a sentence, but
not together with it. -/
theorem exists_points_of_misplaced {tokens : List Token} {error : SyntaxError}
    (failed : requestStep tokens = .error error)
    (misplaced : error.isMisplaced = true) :
    ∃ before rest, tokens = before ++ rest ∧ PointsAt error rest ∧
      Viable before ∧
      ∀ token later, rest = token :: later → ¬Viable (before ++ [token]) := by
  cases tracks_requestStep tokens with
  | reads before rest statement tokens_eq complete alike =>
      rw [tokens_eq, alike rest rfl] at failed
      cases failed
  | refuses other failed' lenient =>
      rw [failed] at failed'
      cases failed'
      rw [misplaced] at lenient
      cases lenient
  | stops before rest more other tokens_eq points completed alike =>
      rw [tokens_eq, alike rest rfl] at failed
      cases failed
      refine ⟨before, rest, tokens_eq, points, ⟨more, completed⟩, ?_⟩
      rintro token later rfl ⟨more, sentence⟩
      -- With any tokens after it, the misplaced one leads to the same error.
      rw [List.append_assoc, List.singleton_append] at sentence
      exact not_sentence_of_misplaced (alike (token :: more) rfl) misplaced
        sentence

/-- The token at some place, given by its span and its characters, is the first
that no sentence goes on with. -/
def FirstImpossible (tokens : List Token) (span : Span) (lexeme : String) :
    Prop :=
  ∃ index token, tokens[index]? = some token ∧
    token.span = span ∧ token.lexeme = lexeme ∧
    Viable (tokens.take index) ∧ ¬Viable (tokens.take (index + 1))

theorem firstImpossible_append {before later : List Token} {token : Token}
    (viable : Viable before) (notViable : ¬Viable (before ++ [token])) :
    FirstImpossible (before ++ token :: later) token.span token.lexeme := by
  have take_eq : (before ++ token :: later).take (before.length + 1) =
      before ++ [token] := by
    rw [List.take_length_add_append]
    rfl
  refine ⟨before.length, token, ?_, rfl, rfl, ?_, ?_⟩
  · rw [List.getElem?_append_right (Nat.le_refl _), Nat.sub_self]
    rfl
  · rw [List.take_left]
    exact viable
  · rw [take_eq]
    exact notViable

/-- An error that points at a token points at the first impossible one. -/
theorem firstImpossible_of_misplaced {tokens : List Token} {error : SyntaxError}
    {span : Span} {lexeme : String} (failed : requestStep tokens = .error error)
    (misplaced : error.isMisplaced = true) (located : ¬PointsAt error [])
    (names : ∀ token rest, PointsAt error (token :: rest) →
      token.span = span ∧ token.lexeme = lexeme) :
    FirstImpossible tokens span lexeme := by
  obtain ⟨before, rest, rfl, points, viable, notViable⟩ :=
    exists_points_of_misplaced failed misplaced
  cases rest with
  | nil => exact absurd points located
  | cons token later =>
      obtain ⟨rfl, rfl⟩ := names token later points
      exact firstImpossible_append viable (notViable token later rfl)

/-- Where the end comes too early, the tokens can be completed. -/
theorem viable_of_unexpectedEnd {tokens : List Token} {wanted : String}
    (failed : requestStep tokens = .error (.unexpectedEnd wanted)) :
    Viable tokens := by
  obtain ⟨before, rest, rfl, points, viable, -⟩ :=
    exists_points_of_misplaced failed rfl
  cases points with
  | finish =>
      rw [List.append_nil]
      exact viable

end Grammar

open Grammar

theorem Statement.requestStep_of_parse {tokens : List Token}
    {error : SyntaxError} (failed : Statement.parse tokens = .error error) :
    requestStep tokens = .error error := by
  rw [Statement.parse_eq] at failed
  cases read : requestStep tokens with
  | error other =>
      rw [read] at failed
      cases failed
      rfl
  | ok result =>
      rw [read] at failed
      cases failed

/-- An error about a token points at the first one that no sentence goes on
with, and an unexpected end comes where the tokens are no sentence but can be
completed to one. -/
theorem TokenSequence.misplaced_of_parse (sequence : TokenSequence) :
    let tokens := sequence.remaining
    (∀ span wanted found,
      sequence.parse = .error (.expected span wanted found) →
        FirstImpossible tokens span found) ∧
    (∀ span found, sequence.parse = .error (.unexpectedToken span found) →
      FirstImpossible tokens span found) ∧
    (∀ span word, sequence.parse = .error (.reservedWord span word) →
      FirstImpossible tokens span word) ∧
    ∀ wanted, sequence.parse = .error (.unexpectedEnd wanted) →
      ¬Sentence tokens ∧ Viable tokens := by
  intro tokens
  have reached {error : SyntaxError} (failed : sequence.parse = .error error) :
      requestStep tokens = .error error :=
    Statement.requestStep_of_parse failed
  refine ⟨fun span wanted found failed => ?_, fun span found failed => ?_,
    fun span word failed => ?_, fun wanted failed => ⟨?_, ?_⟩⟩
  · refine firstImpossible_of_misplaced (reached failed) rfl nofun ?_
    rintro token later ⟨⟩
    exact ⟨rfl, rfl⟩
  · refine firstImpossible_of_misplaced (reached failed) rfl nofun ?_
    rintro token later ⟨⟩
    exact ⟨rfl, rfl⟩
  · refine firstImpossible_of_misplaced (reached failed) rfl nofun ?_
    rintro token later ⟨⟩
    exact ⟨rfl, rfl⟩
  · exact not_sentence_of_misplaced (reached failed) rfl
  · exact viable_of_unexpectedEnd (reached failed)

set_option maxRecDepth 10000 in
/-- An argument is missing between two commas. -/
theorem TokenSequence.misplaced_of_doubled_comma :
    let sequence := ofList
      [⟨.name, "f", .columns 1 1 1⟩, ⟨.leftParenthesis, "(", .columns 1 2 2⟩,
        ⟨.number, "1", .columns 1 3 3⟩, ⟨.comma, ",", .columns 1 4 4⟩,
        ⟨.comma, ",", .columns 1 5 5⟩, ⟨.number, "2", .columns 1 6 6⟩,
        ⟨.rightParenthesis, ")", .columns 1 7 7⟩]
    sequence.parse =
        .error (.expected (.columns 1 5 5) "expression" ",") ∧
      FirstImpossible sequence.remaining (.columns 1 5 5) "," := by
  intro sequence
  have failed : sequence.parse =
      .error (.expected (.columns 1 5 5) "expression" ",") := by
    cbv
  exact ⟨failed, (misplaced_of_parse sequence).1 _ _ _ failed⟩

end Calculator
