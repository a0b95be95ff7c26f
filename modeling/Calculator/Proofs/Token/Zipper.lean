import Calculator.TokenSequence

/-!
# Token sequences as zippers

A zipper is a list with a place inside it: what was passed lies before that
place, and what is still to come lies after it.  Consuming a token moves the
place over it, and a token that is put in front lands right after the place.  A
token sequence whose cursor is not past the end is a zipper, and all of its
operations are those of the zipper.
-/

namespace Calculator

/-- The tokens that were passed and those that are still to come. -/
structure Zipper where
  passed : List Token
  ahead : List Token

namespace TokenSequence

/-- An operation that moves the cursor or adds a token. -/
inductive Operation
  | advance
  | prepend (token : Token)

/-- Does one operation after the other.  With the state that is reached it yields
what each of them consumed. -/
def perform {State : Type} (step : State → Operation → Option Token × State) :
    State → List Operation → List (Option Token) × State
  | state, [] => ([], state)
  | state, first :: rest =>
    let (consumed, next) := step state first
    let (later, final) := perform step next rest
    (consumed :: later, final)

/-- Does an operation on a sequence. -/
def operate (sequence : TokenSequence) :
    Operation → Option Token × TokenSequence
  | .advance => sequence.advance
  | .prepend token => (none, sequence.prepend token)

end TokenSequence

namespace Zipper

/-- Does an operation on a zipper.  At the end there is nothing to consume. -/
def operate : Zipper → TokenSequence.Operation → Option Token × Zipper
  | ⟨passed, []⟩, .advance => (none, ⟨passed, []⟩)
  | ⟨passed, token :: ahead⟩, .advance =>
    (some token, ⟨passed ++ [token], ahead⟩)
  | ⟨passed, ahead⟩, .prepend token => (none, ⟨passed, token :: ahead⟩)

/-- The zipper as a buffer with a cursor. -/
def sequence (zipper : Zipper) : TokenSequence :=
  ⟨zipper.passed ++ zipper.ahead, zipper.passed.length⟩

@[simp] theorem remaining_sequence (zipper : Zipper) :
    zipper.sequence.remaining = zipper.ahead :=
  List.drop_left

theorem cursor_le_size (zipper : Zipper) :
    zipper.sequence.cursor ≤ zipper.sequence.size := by
  rw [sequence, TokenSequence.size, List.length_append]
  exact Nat.le_add_right ..

/-- An operation does the same to a buffer with a cursor as to a zipper. -/
theorem operate_sequence (zipper : Zipper)
    (operation : TokenSequence.Operation) :
    zipper.sequence.operate operation =
      ((zipper.operate operation).1, (zipper.operate operation).2.sequence) := by
  obtain ⟨passed, ahead⟩ := zipper
  cases operation with
  | prepend token =>
      simp [TokenSequence.operate, TokenSequence.prepend, operate, sequence,
        TokenSequence.remaining]
  | advance =>
      cases ahead with
      | nil =>
          simp [TokenSequence.operate, TokenSequence.advance,
            TokenSequence.peek?, operate, sequence]
      | cons token ahead =>
          simp [TokenSequence.operate, TokenSequence.advance,
            TokenSequence.peek?, operate, sequence]

theorem perform_sequence (operations : List TokenSequence.Operation)
    (zipper : Zipper) :
    TokenSequence.perform TokenSequence.operate zipper.sequence operations =
      let performed := TokenSequence.perform operate zipper operations
      (performed.1, performed.2.sequence) := by
  induction operations generalizing zipper with
  | nil => rfl
  | cons first rest induction =>
      simp only [TokenSequence.perform, operate_sequence, induction]

/-- What was passed in the end is what was passed before and all that was
consumed since. -/
theorem passed_perform (operations : List TokenSequence.Operation)
    (zipper : Zipper) :
    (TokenSequence.perform operate zipper operations).2.passed =
      zipper.passed ++
        (TokenSequence.perform operate zipper operations).1.filterMap id := by
  induction operations generalizing zipper with
  | nil => exact (List.append_nil _).symm
  | cons first rest induction =>
      obtain ⟨passed, ahead⟩ := zipper
      cases first with
      | prepend token => simp [TokenSequence.perform, operate, induction]
      | advance =>
          cases ahead <;> simp [TokenSequence.perform, operate, induction]

end Zipper

/-- The zipper of a sequence. -/
def TokenSequence.zipper (sequence : TokenSequence) : Zipper :=
  ⟨sequence.tokens.take sequence.cursor, sequence.remaining⟩

theorem TokenSequence.sequence_zipper {sequence : TokenSequence}
    (inside : sequence.cursor ≤ sequence.size) :
    sequence.zipper.sequence = sequence := by
  have cursor_eq : min sequence.cursor sequence.tokens.length =
      sequence.cursor :=
    Nat.min_eq_left inside
  simp only [Zipper.sequence, zipper, remaining, List.take_append_drop,
    List.length_take, cursor_eq]

end Calculator
