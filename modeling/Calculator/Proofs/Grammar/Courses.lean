import Calculator.Proofs.Grammar.Machine
import Mathlib.Logic.Relation

/-!
# Courses of the machine

Whatever the machine does changes it step by step.  No step alters the tokens,
moves the cursor backwards or past the end, or lets the nesting grow beyond its
limit.  A computation meets a step of the grammar if it comes to an end, by such
changes only, on the level of nesting where it began, and reads what the step
reads.
-/

namespace Calculator

namespace TokenSequence

variable {sequence : TokenSequence} {token : Token}

theorem peek?_eq_head? (sequence : TokenSequence) :
    sequence.peek? = sequence.remaining.head? := by
  rw [peek?, remaining, List.head?_drop]

theorem remaining_eq_nil (ended : sequence.peek? = none) :
    sequence.remaining = [] := by
  rw [peek?_eq_head?] at ended
  exact List.head?_eq_none_iff.mp ended

theorem cursor_lt_of_peek? (next : sequence.peek? = some token) :
    sequence.cursor < sequence.tokens.length :=
  (List.getElem?_eq_some_iff.mp next).1

theorem advance_of_peek? (next : sequence.peek? = some token) :
    sequence.advance =
      (some token, ⟨sequence.tokens, sequence.cursor + 1⟩) := by
  rw [advance, next]

/-- The next token is the first of those that remain. -/
theorem remaining_of_peek? (next : sequence.peek? = some token) :
    sequence.remaining = token :: sequence.advance.2.remaining := by
  obtain ⟨inside, token_eq⟩ := List.getElem?_eq_some_iff.mp next
  rw [advance_of_peek? next, remaining, remaining, ← token_eq]
  exact List.drop_eq_getElem_cons inside

/-- As long as there are no more tokens than places, the token after the next is
the second of those that remain. -/
theorem peekAt?_one_of_peek? (next : sequence.peek? = some token)
    (inMemory : sequence.tokens.length < UInt64.size) :
    sequence.peekAt? 1 = sequence.advance.2.remaining.head? := by
  have inside := cursor_lt_of_peek? next
  rw [peekAt?_eq_getElem?_remaining sequence 1 (by simpa using by omega),
    remaining_of_peek? next, List.head?_eq_getElem?]
  rfl

end TokenSequence

namespace Parser

open Grammar

/-! ### Changes -/

/-- What no change of the machine does: it keeps the tokens, moves the cursor
neither backwards nor past the end, and respects the limit on nesting. -/
structure Moves (earlier later : Parser) : Prop where
  tokens_eq : later.sequence.tokens = earlier.sequence.tokens
  cursor_le : earlier.sequence.cursor ≤ later.sequence.cursor
  inside : earlier.sequence.cursor ≤ earlier.sequence.tokens.length →
    later.sequence.cursor ≤ later.sequence.tokens.length
  nesting_le : earlier.nesting ≤ maximumNesting → later.nesting ≤ maximumNesting

namespace Moves

variable {first second third : Parser}

theorem refl (parser : Parser) : Moves parser parser :=
  ⟨rfl, Nat.le_refl _, id, id⟩

theorem trans (before : Moves first second) (after : Moves second third) :
    Moves first third where
  tokens_eq := after.tokens_eq.trans before.tokens_eq
  cursor_le := Nat.le_trans before.cursor_le after.cursor_le
  inside within := after.inside (before.inside within)
  nesting_le within := after.nesting_le (before.nesting_le within)

end Moves

/-- A course that has only begun. -/
def begun (parser : Parser) : Course :=
  ⟨parser, []⟩

namespace Course

/-- The tokens that are not consumed. -/
def remaining (course : Course) : List Token :=
  course.parser.sequence.remaining

/-- The number of tokens that are consumed. -/
def cursor (course : Course) : Nat :=
  course.parser.sequence.cursor

/-- What the machine went through, latest first. -/
def states (course : Course) : List Parser :=
  course.parser :: course.past

/-- The machine has room for so many levels of nesting more. -/
def HasRoom (course : Course) (room : Nat) : Prop :=
  course.parser.nesting + room = maximumNesting

/-- There are no more tokens than places. -/
def InMemory (course : Course) : Prop :=
  course.parser.sequence.tokens.length < UInt64.size

/-- The course after a change. -/
def change (update : Parser → Parser) (course : Course) : Course :=
  ⟨update course.parser, course.parser :: course.past⟩

/-- The course once the next token is consumed. -/
def advanced (course : Course) : Course :=
  course.change fun parser =>
    { parser with sequence := parser.sequence.advance.2 }

/-- The course once a height is noted. -/
def noting (height : Nat) (course : Course) : Course :=
  course.change ({ · with height })

end Course

/-- The later course is the earlier one with one change more. -/
structure Next (before after : Course) : Prop where
  past_eq : after.past = before.parser :: before.past
  moves : Moves before.parser after.parser

theorem next_change {update : Parser → Parser} {course : Course}
    (moves : Moves course.parser (update course.parser)) :
    Next course (course.change update) :=
  ⟨rfl, moves⟩

theorem moves_of_changes {before after : Course}
    (changes : Relation.ReflTransGen Next before after) :
    Moves before.parser after.parser := by
  induction changes with
  | refl => exact .refl _
  | tail _ next induction => exact induction.trans next.moves

/-- All that a machine has gone through lies forwards of where it began, and so
does each state of all those before. -/
theorem moves_of_begun {parser : Parser} {final : Course}
    (changes : Relation.ReflTransGen Next parser.begun final) :
    (∀ state ∈ final.states, Moves parser state) ∧
      final.states.Pairwise (fun later earlier => Moves earlier later) := by
  induction changes with
  | refl =>
      refine ⟨fun state visited => ?_, List.pairwise_singleton _ _⟩
      cases List.mem_singleton.mp visited
      exact .refl parser
  | @tail before after _ next induction =>
      obtain ⟨moved, forwards⟩ := induction
      have states_eq : after.states = after.parser :: before.states := by
        rw [Course.states, next.past_eq, Course.states]
      have here : Moves parser before.parser := moved _ List.mem_cons_self
      rw [states_eq]
      constructor
      · rw [List.forall_mem_cons]
        exact ⟨here.trans next.moves, moved⟩
      · have later : ∀ state ∈ before.states, Moves state after.parser := by
          intro state visited
          rcases List.mem_cons.mp visited with rfl | passed
          · exact next.moves
          · exact (List.rel_of_pairwise_cons forwards passed).trans next.moves
        exact forwards.cons later

/-- The later course is the earlier one with some changes more, and nested as
deep as before. -/
structure Follows (before after : Course) : Prop where
  changes : Relation.ReflTransGen Next before after
  nesting_eq : after.parser.nesting = before.parser.nesting

namespace Follows

variable {first second third : Course}

theorem refl (course : Course) : Follows course course :=
  ⟨.refl, rfl⟩

theorem trans (before : Follows first second) (after : Follows second third) :
    Follows first third :=
  ⟨before.changes.trans after.changes,
    after.nesting_eq.trans before.nesting_eq⟩

theorem moves (follows : Follows first second) :
    Moves first.parser second.parser :=
  moves_of_changes follows.changes

theorem cursor_le (follows : Follows first second) :
    first.cursor ≤ second.cursor :=
  follows.moves.cursor_le

theorem inMemory (follows : Follows first second)
    (inMemory : first.InMemory) : second.InMemory := by
  rw [Course.InMemory, follows.moves.tokens_eq]
  exact inMemory

theorem hasRoom {room : Nat} (follows : Follows first second)
    (hasRoom : first.HasRoom room) : second.HasRoom room := by
  rw [Course.HasRoom, follows.nesting_eq]
  exact hasRoom

theorem length_remaining_le (follows : Follows first second) :
    second.remaining.length ≤ first.remaining.length := by
  have cursor_le := follows.moves.cursor_le
  rw [Course.remaining, Course.remaining, TokenSequence.remaining,
    TokenSequence.remaining, List.length_drop, List.length_drop,
    follows.moves.tokens_eq]
  omega

theorem noting (height : Nat) (course : Course) :
    Follows course (course.noting height) :=
  ⟨.single (next_change ⟨rfl, Nat.le_refl _, id, id⟩), rfl⟩

end Follows

/-- The later course is the earlier one with one token consumed. -/
structure Consumes (token : Token) (before after : Course) : Prop where
  follows : Follows before after
  cursor_lt : before.cursor < after.cursor
  remaining_eq : before.remaining = token :: after.remaining
  height_eq : after.parser.height = before.parser.height

theorem consumes_advanced {course : Course} {token : Token}
    (peeked : course.parser.sequence.peek? = some token) :
    Consumes token course course.advanced := by
  have sequence_eq := TokenSequence.advance_of_peek? peeked
  have inside := TokenSequence.cursor_lt_of_peek? peeked
  refine ⟨⟨.single (next_change ⟨?_, ?_, ?_, id⟩), rfl⟩, ?_, ?_, rfl⟩
  · rw [sequence_eq]
  · simp only [sequence_eq, Nat.le_succ]
  · intro _
    rw [sequence_eq]
    exact inside
  · simp only [Course.cursor, Course.advanced, Course.change, sequence_eq,
      Nat.lt_succ_self]
  · exact TokenSequence.remaining_of_peek? peeked

theorem Consumes.length_remaining_lt {token : Token} {before after : Course}
    (consumes : Consumes token before after) :
    after.remaining.length < before.remaining.length := by
  rw [consumes.remaining_eq]
  exact Nat.lt_succ_self _

/-! ### Computations -/

section Computations

variable {Result Result' : Type} {first : Parsing Result}
  {next : Result → Parsing Result'} {start course : Course}

theorem bind_of_ok {result : Result}
    (ended : first start = some (.ok result, course)) :
    (first >>= next) start = next result course :=
  congrArg (· >>= _) ended

theorem bind_of_error {error : SyntaxError}
    (ended : first start = some (.error error, course)) :
    (first >>= next) start = some (.error error, course) :=
  congrArg (· >>= _) ended

theorem bind_of_none (unfinished : first start = none) :
    (first >>= next) start = none :=
  congrArg (· >>= _) unfinished

theorem peek?_apply (course : Course) :
    peek? course = some (.ok course.parser.sequence.peek?, course) :=
  rfl

theorem match?_apply (accepts : TokenKind → Bool) (course : Course) :
    match? accepts course =
      match course.parser.sequence.peek? with
      | none => some (.ok none, course)
      | some token =>
        if accepts token.kind then some (.ok (some token), course.advanced)
        else some (.ok none, course) := by
  refine (bind_of_ok (peek?_apply course)).trans ?_
  cases course.parser.sequence.peek? with
  | none => rfl
  | some token =>
      cases accepted : accepts token.kind <;> simp only [accepted] <;> rfl

theorem consume_apply (kind : TokenKind) (wanted : String) (course : Course) :
    consume kind wanted course =
      match course.parser.sequence.peek? with
      | none => some (.error (.unexpectedEnd wanted), course)
      | some token =>
        if token.kind = kind then some (.ok token, course.advanced)
        else
          some (.error (.expected token.span wanted token.lexeme), course) := by
  refine (bind_of_ok (peek?_apply course)).trans ?_
  cases course.parser.sequence.peek? with
  | none => rfl
  | some token =>
      by_cases same : token.kind = kind <;> simp only [same, if_true, if_false] <;>
        rfl

end Computations

/-! ### Computations that meet a step -/

variable {Result Result' Read Read' Choice : Type}

/-- Followed deep enough, the computation comes to an end, after some changes
and on the level of nesting where it began.  Either it fails or its result is
acceptable.  What it reads, seen together with the height that is noted, is what
the step reads from the tokens that remain; this takes for granted that the
number of tokens is a number of the machine. -/
def Meets (parsing : (depth : Nat) → Parsing Result) (start : Course)
    (spec : Step Read) (view : Result → (height : Nat) → Read)
    (accept : Result → Course → Prop) : Prop :=
  ∃ depth outcome final,
    (∀ more, depth ≤ more → parsing more start = some (outcome, final)) ∧
    Follows start final ∧
    (∀ result, outcome = .ok result → accept result final) ∧
    (start.InMemory → spec start.remaining = outcome.map fun result =>
      (view result final.parser.height, final.remaining))

namespace Meets

variable {parsing : Nat → Parsing Result} {start : Course} {spec : Step Read}
  {view : Result → Nat → Read} {accept : Result → Course → Prop}

/-- A computation without calls. -/
theorem of_apply {computation : Parsing Result}
    {outcome : Except SyntaxError Result} {final : Course}
    (ended : computation start = some (outcome, final))
    (follows : Follows start final)
    (accepted : ∀ result, outcome = .ok result → accept result final)
    (agrees : spec start.remaining = outcome.map fun result =>
      (view result final.parser.height, final.remaining)) :
    Meets (fun _ => computation) start spec view accept :=
  ⟨0, outcome, final, fun _ _ => ended, follows, accepted, fun _ => agrees⟩

/-- What a computation becomes may be met from there. -/
theorem after {course : Course} {later : Nat → Parsing Result}
    {specLater : Step Read} {depth : Nat} (follows : Follows start course)
    (same : ∀ more, depth ≤ more → parsing more start = later more course)
    (spec_eq : start.InMemory →
      spec start.remaining = specLater course.remaining)
    (meets : Meets later course specLater view accept) :
    Meets parsing start spec view accept := by
  obtain ⟨depth', outcome, final, ended, follows', accepted, agrees⟩ := meets
  refine ⟨max depth depth', outcome, final, ?_, follows.trans follows',
    accepted, ?_⟩
  · intro more le_more
    rw [same more (by omega), ended more (by omega)]
  · intro inMemory
    rw [spec_eq inMemory, agrees (follows.inMemory inMemory)]

theorem congr {same : Nat → Parsing Result} {sameSpec : Step Read}
    (meets : Meets same start sameSpec view accept)
    (parsing_eq : ∀ depth, parsing depth start = same depth start)
    (spec_eq : start.InMemory →
      spec start.remaining = sameSpec start.remaining) :
    Meets parsing start spec view accept := by
  apply meets.after (.refl start) _ spec_eq
  · exact 0
  · exact fun depth _ => parsing_eq depth

/-- One call more takes one level more to follow. -/
theorem succ {body : Nat → Parsing Result}
    (meets : Meets body start spec view accept)
    (unfolds : ∀ depth, parsing (depth + 1) = body depth) :
    Meets parsing start spec view accept := by
  obtain ⟨depth, outcome, final, ended, rest⟩ := meets
  refine ⟨depth + 1, outcome, final, ?_, rest⟩
  intro more le_more
  obtain ⟨less, rfl⟩ := Nat.exists_eq_add_of_le' le_more
  rw [← Nat.add_assoc, unfolds, ended _ (by omega)]

theorem weaken {accept' : Result → Course → Prop}
    (meets : Meets parsing start spec view accept)
    (weaker : ∀ result final, Follows start final → accept result final →
      accept' result final) :
    Meets parsing start spec view accept' := by
  obtain ⟨depth, outcome, final, ended, follows, accepted, agrees⟩ := meets
  exact ⟨depth, outcome, final, ended, follows, fun result isOk =>
    weaker result final follows (accepted result isOk), agrees⟩

theorem pure {result : Result} {read : Read} (accepted : accept result start)
    (view_eq : view result start.parser.height = read) :
    Meets (fun _ => Pure.pure result) start (Pure.pure read) view accept := by
  refine of_apply rfl (.refl start) ?_ (view_eq ▸ rfl)
  rintro _ ⟨⟩
  exact accepted

theorem throw (error : SyntaxError) :
    Meets (fun _ => MonadExcept.throw error) start (Step.lift (.error error))
      view accept :=
  of_apply rfl (.refl start) nofun rfl

theorem bind {next : Nat → Result → Parsing Result'}
    {specNext : Read → Step Read'} {view' : Result' → Nat → Read'}
    {accept' : Result' → Course → Prop}
    (first : Meets parsing start spec view accept)
    (later : ∀ result course, Follows start course → accept result course →
      Meets (fun depth => next depth result) course
        (specNext (view result course.parser.height)) view' accept') :
    Meets (fun depth => parsing depth >>= next depth) start
      (spec >>= specNext) view' accept' := by
  obtain ⟨depth, outcome, course, ended, follows, accepted, agrees⟩ := first
  have spec_eq (inMemory : start.InMemory) :
      (spec >>= specNext) start.remaining =
        (outcome.map fun result =>
          (view result course.parser.height, course.remaining)) >>=
            fun read => specNext read.1 read.2 := by
    rw [Step.bind_apply, agrees inMemory]
  cases outcome with
  | error error =>
      exact ⟨depth, .error error, course,
        fun more le_more => bind_of_error (ended more le_more), follows, nofun,
        spec_eq⟩
  | ok result =>
      exact (later result course follows (accepted result rfl)).after follows
        (fun more le_more => bind_of_ok (ended more le_more)) spec_eq

/-! ### What the machine can do -/

theorem after_note {next : Nat → Unit → Parsing Result} {height : Nat}
    (later : Meets (fun depth => next depth ()) (start.noting height) spec view
      accept) :
    Meets (fun depth => note height >>= next depth) start spec view accept :=
  later.after (.noting height start) (fun _ (_ : 0 ≤ _) => rfl) fun _ => rfl

theorem after_noted {next : Nat → Nat → Parsing Result}
    (later : Meets (fun depth => next depth start.parser.height) start spec view
      accept) :
    Meets (fun depth => noted >>= next depth) start spec view accept :=
  later.congr (fun _ => rfl) fun _ => rfl

theorem after_current {next : Nat → Parser → Parsing Result}
    (later : Meets (fun depth => next depth start.parser) start spec view
      accept) :
    Meets (fun depth => current >>= next depth) start spec view accept :=
  later.congr (fun _ => rfl) fun _ => rfl

theorem after_peek? {next : Nat → Option Token → Parsing Result}
    (later : Meets (fun depth => next depth start.parser.sequence.peek?) start
      spec view accept) :
    Meets (fun depth => peek? >>= next depth) start spec view accept :=
  later.congr (fun _ => rfl) fun _ => rfl

/-- The kind of the next token decides what is done. -/
theorem after_peek {kind : TokenKind} {present absent : Nat → Parsing Result}
    {specPresent specAbsent : Step Read}
    (isPresent : Meets present start specPresent view accept)
    (isAbsent : Meets absent start specAbsent view accept) :
    Meets (fun depth => do
      let next ← peek?
      if next.map Token.kind = some kind then present depth else absent depth)
      start (Step.peek kind specPresent specAbsent) view accept := by
  have peek_eq : start.parser.sequence.peek?.map Token.kind =
      nextKind? start.remaining := by
    rw [TokenSequence.peek?_eq_head?]
    rfl
  apply after_peek?
  by_cases same : nextKind? start.remaining = some kind
  · simp only [peek_eq, same, if_true]
    exact isPresent.congr (fun _ => rfl) fun _ => if_pos same
  · simp only [peek_eq, same, if_false]
    exact isAbsent.congr (fun _ => rfl) fun _ => if_neg same

theorem after_advance {next : Nat → Unit → Parsing Result} {token : Token}
    {specRest : Step Read} (peeked : start.parser.sequence.peek? = some token)
    (spec_eq : ∀ rest, spec (token :: rest) = specRest rest)
    (later : ∀ course, Consumes token start course →
      Meets (fun depth => next depth ()) course specRest view accept) :
    Meets (fun depth => advance >>= next depth) start spec view accept := by
  have consumes := consumes_advanced peeked
  apply (later _ consumes).after consumes.follows (fun _ (_ : 0 ≤ _) => rfl)
  intro _
  rw [consumes.remaining_eq, spec_eq]

/-- A token that may be there offers a choice. -/
theorem after_match? {choice? : TokenKind → Option Choice}
    {accepts : TokenKind → Bool} {next : Nat → Option Token → Parsing Result}
    {absent : Step Read} {present : Choice → Token → Step Read}
    (accepts_eq : ∀ kind, accepts kind = (choice? kind).isSome)
    (isAbsent : (∀ kind, nextKind? start.remaining = some kind →
      choice? kind = none) →
        Meets (fun depth => next depth none) start absent view accept)
    (isPresent : ∀ choice token course, choice? token.kind = some choice →
      Consumes token start course →
        Meets (fun depth => next depth (some token)) course
          (present choice token) view accept) :
    Meets (fun depth => match? accepts >>= next depth) start
      (Step.branch choice? absent present) view accept := by
  cases peeked : start.parser.sequence.peek? with
  | none =>
      have ended : start.remaining = [] :=
        TokenSequence.remaining_eq_nil peeked
      apply (isAbsent (by simp [ended])).congr
      · exact fun _ => bind_of_ok (by rw [match?_apply, peeked])
      · exact fun _ => by rw [ended]; rfl
  | some token =>
      have consumes := consumes_advanced peeked
      cases found : choice? token.kind with
      | none =>
          apply (isAbsent (by simp [consumes.remaining_eq, found])).congr
          · intro _
            apply bind_of_ok
            simp [match?_apply, peeked, accepts_eq, found]
          · intro _
            simp only [consumes.remaining_eq, Step.branch, found]
      | some choice =>
          apply (isPresent choice token _ found consumes).after consumes.follows
          · intro _ (_ : 0 ≤ _)
            apply bind_of_ok
            simp [match?_apply, peeked, accepts_eq, found]
          · intro _
            simp only [consumes.remaining_eq, Step.branch, found]

theorem consume (kind : TokenKind) (wanted : String) :
    Meets (fun _ => Parser.consume kind wanted) start (Step.expect kind wanted)
      (fun token _ => token)
      (fun token final => Consumes token start final ∧ token.kind = kind) := by
  cases peeked : start.parser.sequence.peek? with
  | none =>
      have ended : start.remaining = [] :=
        TokenSequence.remaining_eq_nil peeked
      have failed : Parser.consume kind wanted start =
          some (.error (.unexpectedEnd wanted), start) := by
        rw [consume_apply, peeked]
      apply of_apply failed (.refl start) nofun
      rw [ended]
      rfl
  | some token =>
      have consumes := consumes_advanced peeked
      by_cases same : token.kind = kind
      · have consumed : Parser.consume kind wanted start =
            some (.ok token, start.advanced) := by
          simp [consume_apply, peeked, same]
        apply of_apply consumed consumes.follows
        · rintro _ ⟨⟩
          exact ⟨consumes, same⟩
        · rw [consumes.remaining_eq, Step.expect_cons, if_pos same]
          rfl
      · have failed : Parser.consume kind wanted start =
            some (.error (.expected token.span wanted token.lexeme), start) := by
          simp [consume_apply, peeked, same]
        apply of_apply failed (.refl start) nofun
        rw [consumes.remaining_eq, Step.expect_cons, if_neg same]
        rfl

theorem name (wanted : String) :
    Meets (fun _ => Parser.name wanted) start (Step.name wanted)
      (fun name _ => name) (fun _ final => start.cursor < final.cursor) := by
  apply (consume .name wanted).bind
  rintro token course - ⟨consumes, -⟩
  cases nameOf token with
  | error error => exact throw error
  | ok name => exact pure consumes.cursor_lt rfl

theorem grow (tallest : Nat) (place : Span) :
    Meets (fun _ => Parser.grow tallest place) start
      (Step.lift (Grammar.grow tallest place)) (fun _ noted => noted)
      (fun _ final => final.parser.height = tallest + 1 ∧
        tallest + 1 ≤ maximumHeight) := by
  unfold Parser.grow
  cases grown : Grammar.grow tallest place with
  | error error => exact throw error
  | ok taller =>
      obtain ⟨taller_le, rfl⟩ := grow_eq_ok.mp grown
      apply of_apply rfl (.noting (tallest + 1) start)
      · rintro _ -
        exact ⟨rfl, taller_le⟩
      · rfl

end Meets

end Parser
end Calculator
