import Calculator.Evaluator

/-!
# The work of an evaluation

A bound on the steps that an evaluation can still make.  An expression that may
be nested `room` levels deep costs a step for each of its parts, the work of
the parts with one level less, and for a call the work of the function body.
Since the nesting is limited, this is a number, and every step brings it down.
-/

namespace Calculator
namespace Evaluator

/-- The greatest number of steps from an expression to its value, if it may be
nested `room` levels deep. -/
def work (functions : FunctionTable) : Nat → Expr → Nat
  | 0, _ => 1
  | room + 1, expression =>
    match expression with
    | .literal .. | .var _ => 1
    | .binary _ left right =>
      work functions room left + work functions room right + 3
    | .assign _ value => work functions room value + 2
    | .conditional test onTrue onFalse =>
      work functions room test + work functions room onTrue +
        work functions room onFalse + 3
    | .call callee arguments _ =>
      arguments.foldr
          (fun argument rest => work functions room argument + 1 + rest) 0 +
        (match functions.find? callee.text with
          | none => 0
          | some function => work functions room function.body) + 3

namespace Frame

/-- The greatest number of steps from the value that a frame waits for to the
value of its own expression. -/
def work (functions : FunctionTable) (room : Nat) : Frame → Nat
  | .leftOperand _ _ right => Evaluator.work functions room right + 2
  | .rightOperand .. | .store _ | .branch | .body _ => 1
  | .test onTrue onFalse =>
    Evaluator.work functions room onTrue +
      Evaluator.work functions room onFalse + 2
  | .argument _ _ function _ after =>
    after.foldr
        (fun argument rest => Evaluator.work functions room argument + 1 + rest)
        0 +
      Evaluator.work functions room function.body + 2

theorem work_pos (functions : FunctionTable) (room : Nat) (frame : Frame) :
    0 < frame.work functions room := by
  cases frame <;> simp only [work] <;> omega
end Frame

/-- The work of some frames, of which the innermost is at the given nesting. -/
def framesWork (functions : FunctionTable) (limit : Nat) :
    Nat → List Frame → Nat
  | _, [] => 0
  | nesting, frame :: outer =>
    frame.work functions (limit - nesting) +
      framesWork functions limit (nesting - 1) outer

namespace State

/-- A bound on the steps that are left. -/
def work (state : State) : Nat :=
  let evaluator := state.evaluator
  let limit := evaluator.limits.maximumNesting
  framesWork evaluator.functions limit evaluator.nesting state.frames +
    match state.focus with
    | .evaluate expression =>
      Evaluator.work evaluator.functions (limit - evaluator.nesting)
        expression + 1
    | .value _ => 1
    | .failure _ => 0

theorem work_evaluate_lt (state : State) (expression : Expr)
    (focus_eq : state.focus = .evaluate expression)
    (inLimit : state.evaluator.nesting <
      state.evaluator.limits.maximumNesting) :
    (state.evaluate expression).work < state.work := by
  obtain ⟨⟨functions, limits, depth, nesting⟩, environment, frames, focus⟩ :=
    state
  simp only at focus_eq inLimit
  subst focus_eq
  obtain ⟨room, room_eq⟩ :
      ∃ room, limits.maximumNesting - nesting = room + 1 :=
    ⟨limits.maximumNesting - nesting - 1, by omega⟩
  have inner_eq : limits.maximumNesting - (nesting + 1) = room := by omega
  cases expression with
  | literal value span =>
    simp only [evaluate, State.work, room_eq, Evaluator.work]
    omega
  | var name =>
    simp only [evaluate, State.work, room_eq, Evaluator.work]
    omega
  | binary operator left right =>
    simp only [evaluate, State.work, room_eq, inner_eq, Evaluator.work, enter,
      framesWork, Frame.work, Nat.add_sub_cancel]
    omega
  | assign target value =>
    simp only [evaluate, State.work, room_eq, inner_eq, Evaluator.work, enter,
      framesWork, Frame.work, Nat.add_sub_cancel]
    omega
  | conditional test onTrue onFalse =>
    simp only [evaluate, State.work, room_eq, inner_eq, Evaluator.work, enter,
      framesWork, Frame.work, Nat.add_sub_cancel]
    omega
  | call callee arguments close =>
    simp only [evaluate]
    split
    · simp only [State.work]
      omega
    · next function found =>
      split
      · simp only [call]
        split
        · simp only [State.work, enter, leave, Nat.add_sub_cancel]
          omega
        · split
          · simp only [State.work, enter, leave, Nat.add_sub_cancel]
            omega
          · simp only [State.work, room_eq, inner_eq, Evaluator.work, enter,
              enterBody, framesWork, Frame.work, found, Nat.add_sub_cancel]
            omega
      · simp only [State.work, room_eq, inner_eq, Evaluator.work, enter,
          framesWork, Frame.work, found, Nat.add_sub_cancel, List.foldr_cons]
        omega

theorem work_resume_lt (state : State) (frame : Frame) (outer : List Frame)
    (value : Int64) (focus_eq : state.focus = .value value)
    (frames_eq : state.frames = frame :: outer) :
    (state.resume frame outer value).work < state.work := by
  obtain ⟨⟨functions, limits, depth, nesting⟩, environment, frames, focus⟩ :=
    state
  simp only at focus_eq frames_eq
  subst focus_eq frames_eq
  cases frame with
  | leftOperand operator left right =>
    simp only [resume, State.work, framesWork, Frame.work]
    omega
  | rightOperand operator left right leftValue =>
    simp only [resume]
    split <;> simp only [State.work, framesWork, Frame.work, leave] <;> omega
  | store target =>
    simp only [resume, State.work, framesWork, Frame.work, leave]
    omega
  | test onTrue onFalse =>
    simp only [resume]
    split <;> simp only [State.work, framesWork, Frame.work] <;> omega
  | branch =>
    simp only [resume, State.work, framesWork, Frame.work, leave]
    omega
  | argument callee close function before after =>
    simp only [resume]
    split
    · simp only [call]
      split
      · simp only [State.work, framesWork, Frame.work, leave]
        omega
      · split
        · simp only [State.work, framesWork, Frame.work, leave]
          omega
        · simp only [State.work, framesWork, Frame.work, enterBody]
          omega
    · simp only [State.work, framesWork, Frame.work, List.foldr_cons]
      omega
  | body caller =>
    simp only [resume, State.work, framesWork, Frame.work, leave, leaveBody]
    omega

theorem work_abandon_lt (state : State) (frame : Frame) (outer : List Frame)
    (error : RuntimeError) (focus_eq : state.focus = .failure error)
    (frames_eq : state.frames = frame :: outer) :
    (state.abandon frame outer).work < state.work := by
  obtain ⟨⟨functions, limits, depth, nesting⟩, environment, frames, focus⟩ :=
    state
  simp only at focus_eq frames_eq
  subst focus_eq frames_eq
  have positive := frame.work_pos functions (limits.maximumNesting - nesting)
  cases frame <;>
    simp only [abandon, State.work, framesWork, leave, leaveBody] at positive ⊢ <;>
    omega

/-- Every step brings the work down. -/
theorem work_lt_of_advance {state next : State}
    (advanced : state.advance = .next next) : next.work < state.work := by
  unfold advance at advanced
  split at advanced
  · next expression focus_eq =>
    split at advanced
    · cases advanced
      simp only [State.work, focus_eq]
      omega
    · next inLimit =>
      cases advanced
      exact work_evaluate_lt state expression focus_eq (by omega)
  · next value focus_eq =>
    split at advanced
    · cases advanced
    · next frame outer frames_eq =>
      cases advanced
      exact work_resume_lt state frame outer value focus_eq frames_eq
  · next error focus_eq =>
    split at advanced
    · cases advanced
    · next frame outer frames_eq =>
      cases advanced
      exact work_abandon_lt state frame outer error focus_eq frames_eq

end State
end Evaluator
end Calculator
