import Calculator.Proofs.Grammar.Contract

/-!
# What follows a phrase

Whatever state the machine is in, a production that reads an expression stops in
front of a token that does not go on with the phrase.  After a branch of a
conditional there is no second question mark, so the loop that looks for one
ends after its first round.
-/

namespace Calculator

/-- How loosely a token of this kind goes on with an expression before it: first
come the operators, from products to comparisons, then conditionals, then
assignments.  No other token goes on with an expression. -/
def TokenKind.rank : TokenKind → Nat
  | .star | .slash | .percent => 1
  | .plus | .minus => 2
  | .less | .greater | .equalEqual | .notEqual | .lessEqual | .greaterEqual => 3
  | .question => 4
  | .equal => 5
  | _ => 6

theorem TokenKind.rank_pos (kind : TokenKind) : 0 < kind.rank := by
  cases kind <;> decide

namespace Parser

open Grammar

namespace Production

/-- The loosest tokens that go on with a phrase of the production. -/
def rank : Production → Nat
  | .factor | .primary | .call => 0
  | .chain .product => 1
  | .chain .sum => 2
  | .chain .comparison => 3
  | .conditional => 4
  | .assign | .assignment => 5

/-- The next token does not go on with a phrase of the production. -/
def Ends (production : Production) (rest : List Token) : Prop :=
  ∀ kind, nextKind? rest = some kind → production.rank < kind.rank

variable {level : Level} {rest : List Token} {kind : TokenKind}

theorem rank_ne_of_operator?_eq_none (none : level.operator? kind = none) :
    kind.rank ≠ (chain level).rank := by
  cases level <;> cases kind <;> first | decide | cases none

theorem rank_of_operator? {operator : Operator}
    (found : level.operator? kind = some operator) :
    kind.rank = (chain level).rank := by
  cases level <;> cases kind <;> first | rfl | cases found

theorem rank_chain (level : Level) :
    (chain level).rank = (operand level).rank + 1 := by
  cases level <;> rfl

theorem rank_le_comparison (level : Level) :
    (chain level).rank ≤ (chain .comparison).rank := by
  cases level <;> decide

theorem rank_eq_question (same : kind.rank = conditional.rank) :
    kind = .question := by
  cases kind <;> first | rfl | cases same

theorem rank_eq_equal (same : kind.rank = assignment.rank) :
    kind = .equal := by
  cases kind <;> first | rfl | cases same

/-- What is no phrase of a looser production has nothing to go on with. -/
theorem Ends.of_rank_eq_zero {production : Production}
    (tightest : production.rank = 0) (rest : List Token) :
    production.Ends rest := by
  intro kind _
  rw [tightest]
  exact kind.rank_pos

/-- A phrase ends where the tighter phrase at its end does, if the next token is
none of those that only the looser production goes on with. -/
theorem Ends.loosen {production tighter : Production}
    (ends : tighter.Ends rest) (rank_eq : production.rank = tighter.rank + 1)
    (other : ∀ kind, nextKind? rest = some kind →
      kind.rank ≠ production.rank) : production.Ends rest := by
  intro kind isNext
  have looser := ends kind isNext
  have different := other kind isNext
  omega

theorem Ends.of_rank_le {production looser : Production}
    (ends : looser.Ends rest) (rank_le : production.rank ≤ looser.rank) :
    production.Ends rest :=
  fun kind isNext => Nat.lt_of_le_of_lt rank_le (ends kind isNext)

theorem Ends.nextKind?_ne {production : Production} (ends : production.Ends rest)
    (rank_le : kind.rank ≤ production.rank) : nextKind? rest ≠ some kind := by
  intro isNext
  have looser := ends kind isNext
  omega

theorem Ends.operator?_eq_none {production : Production}
    (ends : production.Ends rest)
    (rank_le : (chain .comparison).rank ≤ production.rank) (level : Level)
    (isNext : nextKind? rest = some kind) : level.operator? kind = none := by
  cases found : level.operator? kind with
  | none => rfl
  | some operator =>
      have looser := ends kind isNext
      have same := rank_of_operator? found
      have tighter := rank_le_comparison level
      omega

end Production

/-! ### Results of computations -/

/-- If the computation yields a result, then that is acceptable. -/
def Ensures {Result : Type} (parsing : Parsing Result) (start : Course)
    (accept : Result → Course → Prop) : Prop :=
  ∀ result final, parsing start = some (.ok result, final) →
    accept result final

section Computations

variable {Result Result' : Type} {first : Parsing Result}
  {next next' : Result → Parsing Result'} {start : Course}
  {accept : Result' → Course → Prop}

/-- Computations that begin alike go on alike if they do so wherever their
beginning ends. -/
theorem bind_congr_of_ok (same : ∀ result course,
      first start = some (.ok result, course) →
        next result course = next' result course) :
    (first >>= next) start = (first >>= next') start := by
  cases went : first start with
  | none => rw [bind_of_none went, bind_of_none went]
  | some reached =>
      obtain ⟨outcome, course⟩ := reached
      cases outcome with
      | error error => rw [bind_of_error went, bind_of_error went]
      | ok result =>
          rw [bind_of_ok went, bind_of_ok went]
          exact same result course went

namespace Ensures

theorem unfinished : Ensures unfinished start accept := by
  intro result final ended
  cases ended

theorem throw (error : SyntaxError) :
    Ensures (MonadExcept.throw error) start accept := by
  intro result final ended
  cases ended

theorem pure {result : Result'} (accepted : accept result start) :
    Ensures (Pure.pure result) start accept := by
  rintro _ _ ⟨⟩
  exact accepted

theorem bind (later : ∀ result course,
      first start = some (.ok result, course) →
        Ensures (next result) course accept) :
    Ensures (first >>= next) start accept := by
  intro result' final ended
  cases went : first start with
  | none =>
      rw [bind_of_none went] at ended
      cases ended
  | some reached =>
      obtain ⟨outcome, course⟩ := reached
      cases outcome with
      | error error =>
          rw [bind_of_error went] at ended
          cases ended
      | ok result =>
          rw [bind_of_ok went] at ended
          exact later result course went result' final ended

theorem after_noted {next : Nat → Parsing Result'}
    (later : Ensures (next start.parser.height) start accept) :
    Ensures (noted >>= next) start accept :=
  later

theorem after_note {next : Unit → Parsing Result'} {height : Nat}
    (later : Ensures (next ()) (start.noting height) accept) :
    Ensures (note height >>= next) start accept :=
  later

/-- A token that is not matched is of no accepted kind, and it is left where it
was. -/
theorem after_match? {accepts : TokenKind → Bool}
    {next : Option Token → Parsing Result'}
    (absent : (∀ kind, nextKind? start.remaining = some kind →
      accepts kind = false) → Ensures (next none) start accept)
    (present : ∀ token course, accepts token.kind = true →
      Ensures (next (some token)) course accept) :
    Ensures (match? accepts >>= next) start accept := by
  apply bind
  intro matched course went
  rw [match?_apply] at went
  cases peeked : start.parser.sequence.peek? with
  | none =>
      simp only [peeked] at went
      cases went
      apply absent
      intro kind isNext
      rw [Course.remaining, TokenSequence.remaining_eq_nil peeked] at isNext
      cases isNext
  | some token =>
      simp only [peeked] at went
      cases accepted : accepts token.kind with
      | false =>
          simp only [accepted] at went
          cases went
          apply absent
          intro kind isNext
          rw [(consumes_advanced peeked).remaining_eq] at isNext
          cases isNext
          exact accepted
      | true =>
          simp only [accepted, if_true] at went
          cases went
          exact present token _ accepted

end Ensures
end Computations

/-- A tree that grows takes no token. -/
theorem remaining_of_grow {tallest : Nat} {place : Span} {result : Unit}
    {start grown : Course}
    (grew : grow tallest place start = some (.ok result, grown)) :
    grown.remaining = start.remaining := by
  unfold grow at grew
  cases taller : Grammar.grow tallest place <;>
    simp only [taller] at grew <;> cases grew
  rfl

/-! ### Ends of phrases -/

/-- Where the machine has no room, it reads nothing. -/
theorem nested_of_full (depth : Nat) (production : Production) {start : Course}
    (full : start.parser.nesting = maximumNesting) :
    ∃ error, nested (depth + 1) production start =
      some (.error error, start) := by
  have looked : current start = some (.ok start.parser, start) := rfl
  rw [nested, bind_of_ok looked, if_pos full]
  exact ⟨_, rfl⟩

-- The recursion is on the depth of calls and not on the tokens, since beyond the
-- limit on nesting nothing is known about the end of a run.
mutual

/-- What a production leaves does not go on with what it has read. -/
theorem ends_of_run : (depth : Nat) → (production : Production) →
    (start : Course) →
      Ensures (run depth production) start fun _ final =>
        production.Ends final.remaining
  | 0, _, _ => .unfinished
  | depth + 1, .assign, start => ends_of_nested depth .assignment start
  | _ + 1, .factor, _ => fun _ _ _ => .of_rank_eq_zero rfl _
  | depth + 1, .assignment, start => by
      rw [run]
      apply Ensures.bind
      intro target course targetRead
      have ends := ends_of_run depth .conditional start _ _ targetRead
      apply Ensures.after_noted
      apply Ensures.after_match?
      · intro noSign
        apply Ensures.pure
        apply ends.loosen rfl
        intro kind isNext same
        have rejected := noSign kind isNext
        rw [Production.rank_eq_equal same] at rejected
        cases rejected
      · intro sign afterSign _
        apply Ensures.bind
        intro value afterValue valueRead
        have valueEnds := ends_of_run depth .assign afterSign _ _ valueRead
        cases target with
        | var name =>
            apply Ensures.after_noted
            apply Ensures.bind
            intro _ grown grew
            apply Ensures.pure
            rw [remaining_of_grow grew]
            exact valueEnds
        | _ => exact .throw _
  | depth + 1, .conditional, start => by
      rw [run]
      apply Ensures.bind
      intro test course testRead
      apply Ensures.after_noted
      apply ends_of_conditionalFrom depth
      exact ends_of_run depth (.chain .comparison) start _ _ testRead
  | depth + 1, .chain level, start => by
      rw [run]
      apply Ensures.bind
      intro first course firstRead
      apply Ensures.after_noted
      apply ends_of_chainFrom depth
      exact ends_of_run depth (operand level) start _ _ firstRead
  | _ + 1, .primary, _ => fun _ _ _ => .of_rank_eq_zero rfl _
  | _ + 1, .call, _ => fun _ _ _ => .of_rank_eq_zero rfl _

theorem ends_of_nested : (depth : Nat) → (production : Production) →
    (start : Course) →
      Ensures (nested depth production) start fun _ final =>
        production.Ends final.remaining
  | 0, _, _ => .unfinished
  | depth + 1, production, start => by
      intro expression final ended
      by_cases full : start.parser.nesting = maximumNesting
      · obtain ⟨error, refused⟩ := nested_of_full depth production full
        rw [refused] at ended
        cases ended
      · rw [nested_eq full] at ended
        obtain ⟨⟨_, inner⟩, innerRead, same⟩ := Option.map_eq_some_iff.mp ended
        cases same
        have ends : production.Ends inner.remaining :=
          ends_of_run depth production start.entered _ _ innerRead
        exact ends

theorem ends_of_conditionalFrom : (depth : Nat) → (test : Expr) →
    (tallest : Nat) → {start : Course} →
      (Production.chain .comparison).Ends start.remaining →
        Ensures (conditionalFrom depth test tallest) start fun _ final =>
          Production.conditional.Ends final.remaining
  | 0, _, _, _, _ => .unfinished
  | depth + 1, test, tallest, start, ends => by
      rw [conditionalFrom]
      apply Ensures.after_match?
      · intro noQuestion
        apply Ensures.after_note
        apply Ensures.pure
        apply ends.loosen rfl
        intro kind isNext same
        have rejected := noQuestion kind isNext
        rw [Production.rank_eq_question same] at rejected
        cases rejected
      · intro question afterQuestion _
        apply Ensures.bind
        intro onTrue afterTrue _
        apply Ensures.after_noted
        apply Ensures.bind
        intro colon afterColon _
        apply Ensures.bind
        intro onFalse afterFalse falseRead
        have ends := ends_of_run depth .assign afterColon _ _ falseRead
        apply Ensures.after_noted
        apply Ensures.bind
        intro _ grown grew
        apply Ensures.after_noted
        apply ends_of_conditionalFrom depth
        rw [remaining_of_grow grew]
        -- An assignment has taken more than a comparison would have.
        exact ends.of_rank_le (by decide)

theorem ends_of_chainFrom {level : Level} : (depth : Nat) → (left : Expr) →
    (tallest : Nat) → {start : Course} → (operand level).Ends start.remaining →
      Ensures (chainFrom depth level left tallest) start fun _ final =>
        (Production.chain level).Ends final.remaining
  | 0, _, _, _, _ => .unfinished
  | depth + 1, left, tallest, start, ends => by
      rw [chainFrom]
      apply Ensures.after_match?
      · intro noOperator
        apply Ensures.after_note
        apply Ensures.pure
        apply ends.loosen (Production.rank_chain level)
        intro kind isNext
        apply Production.rank_ne_of_operator?_eq_none
        exact Option.not_isSome_iff_eq_none.mp (by simp [noOperator kind isNext])
      · intro sign afterSign _
        apply Ensures.bind
        intro right afterRight rightRead
        have ends : (operand level).Ends afterRight.remaining :=
          ends_of_run depth (operand level) afterSign _ _ rightRead
        apply Ensures.after_noted
        apply Ensures.bind
        intro _ grown grew
        rw [← remaining_of_grow grew] at ends
        apply Ensures.after_noted
        cases level.operator? sign.kind with
        | none => exact .throw _
        | some operator => exact ends_of_chainFrom depth _ _ ends

end

/-! ### One question mark for each conditional -/

/-- Goes on with a conditional after its test, but does not look for a second
question mark. -/
def conditionalOnce (depth : Nat) (test : Expr) (tallest : Nat) :
    Parsing Expr := do
  match ← match? (· = .question) with
  | none =>
    note tallest
    return test
  | some _ =>
    let onTrue ← run depth .assign
    let tallest := max tallest (← noted)
    let _ ← consume .colon "':'"
    let onFalse ← run depth .assign
    grow (max tallest (← noted)) onFalse.span
    note (← noted)
    return .conditional test onTrue onFalse

theorem match?_of_next_ne {kind : TokenKind} {start : Course}
    (next_ne : nextKind? start.remaining ≠ some kind) :
    match? (· = kind) start = some (.ok none, start) := by
  rw [match?_apply]
  cases peeked : start.parser.sequence.peek? with
  | none => rfl
  | some token =>
      rw [(consumes_advanced peeked).remaining_eq, nextKind?_cons] at next_ne
      have different : token.kind ≠ kind := fun same =>
        next_ne (congrArg some same)
      simp only [different, decide_false]
      rfl

/-- Looking for a second question mark changes nothing. -/
theorem conditionalFrom_eq_once (depth : Nat) (test : Expr) (tallest : Nat) :
    conditionalFrom (depth + 2) test tallest =
      conditionalOnce (depth + 1) test tallest := by
  funext start
  rw [conditionalFrom, conditionalOnce]
  apply bind_congr_of_ok
  intro question afterQuestion _
  cases question with
  | none => rfl
  | some question =>
      apply bind_congr_of_ok
      intro onTrue afterTrue _
      apply bind_congr_of_ok
      intro trueHeight _ _
      apply bind_congr_of_ok
      intro colon afterColon _
      apply bind_congr_of_ok
      intro onFalse afterFalse falseRead
      have ends := ends_of_run (depth + 1) .assign afterColon _ _ falseRead
      apply bind_congr_of_ok
      rintro falseHeight _ ⟨⟩
      apply bind_congr_of_ok
      intro _ grown grew
      apply bind_congr_of_ok
      rintro height _ ⟨⟩
      have noQuestion : nextKind? grown.remaining ≠ some .question := by
        rw [remaining_of_grow grew]
        exact ends.nextKind?_ne (by decide)
      rw [conditionalFrom]
      exact bind_of_ok (match?_of_next_ne noQuestion)

end Parser

end Calculator
