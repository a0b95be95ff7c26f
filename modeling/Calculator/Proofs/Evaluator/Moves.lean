import Calculator.Evaluator.Run

/-!
# The moves of an evaluation

What one step may do to the frames, the counters and the focus.  An expression
is refused, settled at once or entered; a frame goes on to its next part, makes
its call or is left.  The counters follow from the frames at every moment.
-/

namespace Calculator

/-- The parts of an expression that are evaluated with it. -/
def Expr.operands : Expr → List Expr
  | .literal .. | .var _ => []
  | .binary _ left right => [left, right]
  | .assign _ value => [value]
  | .conditional test onTrue onFalse => [test, onTrue, onFalse]
  | .call _ arguments _ => arguments

namespace Evaluator
namespace Frame

/-- Whether a frame is a function body. -/
def isBody : Frame → Bool
  | .body _ => true
  | _ => false

/-- The parts that a frame may still wait for. -/
def pending : Frame → List Expr
  | .leftOperand _ _ right => [right]
  | .test onTrue onFalse => [onTrue, onFalse]
  | .argument _ _ _ _ after => after
  | _ => []

/-- The function that a frame is going to call. -/
def function? : Frame → Option FunctionDefinition
  | .argument _ _ function _ _ => some function
  | _ => none

/-- The evaluator inside a frame. -/
def inside (evaluator : Evaluator) (frame : Frame) : Evaluator :=
  if frame.isBody then evaluator.enter.enterBody else evaluator.enter

/-- The evaluator outside a frame. -/
def outside (evaluator : Evaluator) (frame : Frame) : Evaluator :=
  if frame.isBody then evaluator.leaveBody.leave else evaluator.leave

/-- Leaving a frame undoes entering it. -/
@[simp] theorem outside_inside (evaluator : Evaluator) (frame : Frame) :
    frame.outside (frame.inside evaluator) = evaluator := by
  unfold outside inside
  cases frame.isBody <;> rfl

@[simp] theorem functions_outside (evaluator : Evaluator) (frame : Frame) :
    (frame.outside evaluator).functions = evaluator.functions := by
  unfold outside
  split <;> rfl

@[simp] theorem limits_outside (evaluator : Evaluator) (frame : Frame) :
    (frame.outside evaluator).limits = evaluator.limits := by
  unfold outside
  split <;> rfl

theorem nesting_outside_le (evaluator : Evaluator) (frame : Frame) :
    (frame.outside evaluator).nesting ≤ evaluator.nesting := by
  unfold outside
  split <;> exact Nat.sub_le _ _

theorem depth_outside_le (evaluator : Evaluator) (frame : Frame) :
    (frame.outside evaluator).depth ≤ evaluator.depth := by
  unfold outside
  split
  · exact Nat.sub_le _ _
  · exact Nat.le_refl _

end Frame

namespace Focus

/-- A value, or an error other than that of the nesting. -/
def Settled : Focus → Prop
  | .evaluate _ | .failure (.nestingTooDeep _) => False
  | .value _ | .failure _ => True

theorem Settled.ne_nestingTooDeep {focus : Focus} (settled : focus.Settled)
    (limit : Nat) : focus ≠ .failure (.nestingTooDeep limit) := by
  rintro rfl
  exact settled

/-- Whether something is to be evaluated. -/
def isEvaluate : Focus → Bool
  | .evaluate _ => true
  | _ => false

end Focus

namespace State

/-- What a step may do. -/
inductive Moves : State → State → Prop
  | refuse {evaluator environment frames expression}
      (full : evaluator.limits.maximumNesting ≤ evaluator.nesting) :
      Moves ⟨evaluator, environment, frames, .evaluate expression⟩
        ⟨evaluator, environment, frames,
          .failure (.nestingTooDeep evaluator.limits.maximumNesting)⟩
  | settle {evaluator environment after frames expression focus}
      (settled : focus.Settled) :
      Moves ⟨evaluator, environment, frames, .evaluate expression⟩
        ⟨evaluator, after, frames, focus⟩
  | enter {evaluator environment frames expression frame part}
      (room : evaluator.nesting < evaluator.limits.maximumNesting)
      (notBody : frame.isBody = false)
      (parts : part :: frame.pending ⊆ expression.operands)
      (found : ∀ function ∈ frame.function?,
        ∃ name, evaluator.functions.find? name = some function) :
      Moves ⟨evaluator, environment, frames, .evaluate expression⟩
        ⟨evaluator.enter, environment, frame :: frames, .evaluate part⟩
  | goOn {evaluator environment frame next outer value part}
      (notBody : frame.isBody = false) (nextNotBody : next.isBody = false)
      (parts : part :: next.pending ⊆ frame.pending)
      (calls : ∀ function ∈ next.function?, function ∈ frame.function?) :
      Moves ⟨evaluator, environment, frame :: outer, .value value⟩
        ⟨evaluator, environment, next :: outer, .evaluate part⟩
  | callAtOnce {evaluator environment own frames expression name function}
      (room : evaluator.nesting < evaluator.limits.maximumNesting)
      (few : evaluator.depth < evaluator.limits.maximumCallDepth)
      (found : evaluator.functions.find? name = some function) :
      Moves ⟨evaluator, environment, frames, .evaluate expression⟩
        ⟨evaluator.enter.enterBody, own, .body environment :: frames,
          .evaluate function.body⟩
  | call {evaluator environment own frame outer value function}
      (notBody : frame.isBody = false) (calls : function ∈ frame.function?)
      (few : evaluator.depth < evaluator.limits.maximumCallDepth) :
      Moves ⟨evaluator, environment, frame :: outer, .value value⟩
        ⟨evaluator.enterBody, own, .body environment :: outer,
          .evaluate function.body⟩
  | leave {evaluator environment after frame outer focus next}
      (idle : focus.isEvaluate = false)
      (settled : next.Settled ∨ next = focus) :
      Moves ⟨evaluator, environment, frame :: outer, focus⟩
        ⟨frame.outside evaluator, after, outer, next⟩

/-- Nothing is called by a frame that calls no function. -/
theorem calls_nothing {frame : Frame} {Holds : FunctionDefinition → Prop}
    (none_eq : frame.function? = none) :
    ∀ function ∈ frame.function?, Holds function := by
  intro function calls
  rw [none_eq] at calls
  cases calls

theorem moves_evaluate {evaluator : Evaluator} {environment : Environment}
    {frames : List Frame} (expression : Expr)
    (room : evaluator.nesting < evaluator.limits.maximumNesting) :
    Moves ⟨evaluator, environment, frames, .evaluate expression⟩
      (evaluate ⟨evaluator, environment, frames, .evaluate expression⟩
        expression) := by
  cases expression with
  | literal value span => exact .settle trivial
  | var name => exact .settle trivial
  | binary operator left right =>
      exact .enter room rfl (List.Subset.refl _) (calls_nothing rfl)
  | assign target value =>
      exact .enter room rfl (List.Subset.refl _) (calls_nothing rfl)
  | conditional test onTrue onFalse =>
      exact .enter room rfl (List.Subset.refl _) (calls_nothing rfl)
  | call callee arguments close =>
      simp only [evaluate]
      cases found : evaluator.functions.find? callee.text with
      | none => exact .settle trivial
      | some function =>
          cases arguments with
          | nil =>
              simp only [call]
              split
              · exact .settle trivial
              · split
                · exact .settle trivial
                · next few =>
                  exact .callAtOnce room (Nat.lt_of_not_le few) found
          | cons first rest =>
              refine .enter room rfl (List.Subset.refl _) fun other calls => ?_
              cases calls
              exact ⟨_, found⟩

theorem moves_resume {evaluator : Evaluator} {environment : Environment}
    (frame : Frame) (outer : List Frame) (value : Int64) :
    Moves ⟨evaluator, environment, frame :: outer, .value value⟩
      (resume ⟨evaluator, environment, frame :: outer, .value value⟩ frame outer
        value) := by
  cases frame with
  | leftOperand operator left right =>
      exact .goOn rfl rfl (List.Subset.refl _) (calls_nothing rfl)
  | rightOperand operator left right leftValue =>
      simp only [resume]
      split
      · exact .leave rfl (.inl trivial)
      · exact .leave rfl (.inl trivial)
  | store target => exact .leave rfl (.inl trivial)
  | test onTrue onFalse =>
      refine .goOn rfl rfl ?_ (calls_nothing rfl)
      split <;> simp [Frame.pending]
  | branch => exact .leave rfl (.inl trivial)
  | argument callee close function before after =>
      cases after with
      | nil =>
          simp only [resume, call]
          split
          · exact .leave rfl (.inl trivial)
          · split
            · exact .leave rfl (.inl trivial)
            · next few => exact .call rfl rfl (Nat.lt_of_not_le few)
      | cons next rest =>
          exact .goOn rfl rfl (List.Subset.refl _) fun _ calls => calls
  | body caller => exact .leave rfl (.inl trivial)

theorem moves_abandon {evaluator : Evaluator} {environment : Environment}
    (frame : Frame) (outer : List Frame) (error : RuntimeError) :
    Moves ⟨evaluator, environment, frame :: outer, .failure error⟩
      (abandon ⟨evaluator, environment, frame :: outer, .failure error⟩ frame
        outer) := by
  cases frame <;> exact .leave rfl (.inr rfl)

/-- Every step is one of the moves. -/
theorem moves_of_advance {state next : State}
    (advanced : state.advance = .next next) : state.Moves next := by
  obtain ⟨evaluator, environment, frames, focus⟩ := state
  cases focus with
  | evaluate expression =>
      simp only [advance] at advanced
      split at advanced
      · next full =>
        cases advanced
        exact .refuse full
      · next room =>
        cases advanced
        exact moves_evaluate expression (Nat.lt_of_not_le room)
  | value value =>
      cases frames with
      | nil => cases advanced
      | cons frame outer =>
          cases advanced
          exact moves_resume frame outer value
  | failure error =>
      cases frames with
      | nil => cases advanced
      | cons frame outer =>
          cases advanced
          exact moves_abandon frame outer error

/-- The states that an evaluation goes through from a given one on. -/
inductive Visits (first : State) : State → Prop
  | first : Visits first first
  | next {state later} (before : Visits first state)
      (advanced : state.advance = .next later) : Visits first later

theorem Visits.of_advance {first second last : State}
    (advanced : first.advance = .next second) (visits : second.Visits last) :
    first.Visits last := by
  induction visits with
  | first => exact .next .first advanced
  | next _ advanced induction => exact .next induction advanced

/-- What the moves preserve holds in all states that are visited. -/
theorem Visits.preserves {Holds : State → Prop} {first last : State}
    (step : ∀ {state next}, Moves state next → Holds state → Holds next)
    (visits : first.Visits last) (holds : Holds first) : Holds last := by
  induction visits with
  | first => exact holds
  | next _ advanced induction =>
      exact step (moves_of_advance advanced) induction

/-- A run ends in one of the states that are visited. -/
theorem exists_last (state : State) :
    ∃ last, state.Visits last ∧ last.advance = .done (run state) := by
  fun_induction run state with
  | case1 state result advanced => exact ⟨state, .first, advanced⟩
  | case2 state next advanced _ induction =>
      obtain ⟨last, visits, done⟩ := induction
      exact ⟨last, visits.of_advance advanced, done⟩

/-- An evaluation ends with an error if this is what is left. -/
theorem focus_of_done {state : State} {result : Result} {error : RuntimeError}
    (done : state.advance = .done result)
    (fails : result.outcome = .error error) : state.focus = .failure error := by
  obtain ⟨evaluator, environment, frames, focus⟩ := state
  cases focus with
  | evaluate expression =>
      simp only [advance] at done
      split at done <;> cases done
  | value value =>
      cases frames <;> cases done
      cases fails
  | failure other =>
      cases frames <;> cases done
      cases fails
      rfl

/-- An expression is to be evaluated although the nesting has reached its limit.
-/
structure Full (state : State) : Prop where
  evaluates : ∃ expression, state.focus = .evaluate expression
  nesting_le : state.evaluator.limits.maximumNesting ≤ state.evaluator.nesting

/-- Only in a full state is there an error of the nesting. -/
theorem Visits.exists_full {first last : State} {limit : Nat}
    (begins : first.focus.isEvaluate = true) (visits : first.Visits last)
    (fails : last.focus = .failure (.nestingTooDeep limit)) :
    ∃ full, first.Visits full ∧ full.Full := by
  induction visits with
  | first =>
      rw [fails] at begins
      cases begins
  | @next state later before advanced induction =>
      cases moves_of_advance advanced with
      | refuse full => exact ⟨_, before, ⟨_, rfl⟩, full⟩
      | settle settled => exact absurd fails (settled.ne_nestingTooDeep limit)
      | enter | goOn | callAtOnce | call => cases fails
      | leave _ settled =>
          -- A frame that is left hands on the error of what is inside it.
          rcases settled with settled | same
          · exact absurd fails (settled.ne_nestingTooDeep limit)
          · exact induction (same.symm.trans fails)

end State

/-! ### Counters -/

/-- The number of function bodies among some frames. -/
def bodies (frames : List Frame) : Nat :=
  frames.countP Frame.isBody

/-- The evaluator inside some frames. -/
def insideAll (evaluator : Evaluator) : List Frame → Evaluator
  | [] => evaluator
  | frame :: outer => frame.inside (evaluator.insideAll outer)

theorem insideAll_eq (evaluator : Evaluator) (frames : List Frame) :
    evaluator.insideAll frames =
      { evaluator with
        depth := evaluator.depth + bodies frames
        nesting := evaluator.nesting + frames.length } := by
  induction frames with
  | nil => rfl
  | cons frame outer induction =>
      rw [insideAll, induction]
      cases isBody : frame.isBody <;>
        simp [Frame.inside, isBody, bodies, enter, enterBody, Nat.add_assoc]

namespace State

/-- The counters have counted the frames. -/
def Counted (start : Evaluator) (state : State) : Prop :=
  state.evaluator = start.insideAll state.frames

theorem Moves.counted {start : Evaluator} {state next : State}
    (moves : state.Moves next) (counted : state.Counted start) :
    next.Counted start := by
  unfold Counted at counted ⊢
  cases moves with
  | refuse | settle => exact counted
  | enter _ notBody =>
      simp only [insideAll, Frame.inside, notBody] at counted ⊢
      rw [counted]
      rfl
  | goOn notBody nextNotBody =>
      simp only [insideAll, Frame.inside, notBody, nextNotBody] at counted ⊢
      exact counted
  | callAtOnce =>
      simp only at counted
      rw [counted]
      rfl
  | call notBody =>
      simp only [insideAll, Frame.inside, notBody] at counted
      rw [counted]
      rfl
  | leave =>
      simp only [insideAll] at counted
      rw [counted, Frame.outside_inside]

/-- The evaluation of an expression begins outside of all frames. -/
def start (evaluator : Evaluator) (expression : Expr)
    (environment : Environment) : State :=
  ⟨evaluator, environment, [], .evaluate expression⟩

theorem Visits.counted {evaluator : Evaluator} {expression : Expr}
    {environment : Environment} {state : State}
    (visits : (start evaluator expression environment).Visits state) :
    state.Counted evaluator :=
  visits.preserves Moves.counted rfl

/-- The counters keep to the limits. -/
structure WithinLimits (state : State) : Prop where
  nesting_le : state.evaluator.nesting ≤ state.evaluator.limits.maximumNesting
  depth_le : state.evaluator.depth ≤ state.evaluator.limits.maximumCallDepth

theorem Moves.withinLimits {state next : State} (moves : state.Moves next)
    (within : state.WithinLimits) : next.WithinLimits := by
  obtain ⟨nesting_le, depth_le⟩ := within
  cases moves with
  | refuse | settle | goOn => exact ⟨nesting_le, depth_le⟩
  | enter room => exact ⟨room, depth_le⟩
  | callAtOnce room few => exact ⟨room, few⟩
  | call _ _ few => exact ⟨nesting_le, few⟩
  | @leave evaluator _ _ frame =>
      refine ⟨?_, ?_⟩
      · rw [Frame.limits_outside]
        exact Nat.le_trans (frame.nesting_outside_le evaluator) nesting_le
      · rw [Frame.limits_outside]
        exact Nat.le_trans (frame.depth_outside_le evaluator) depth_le

end State

end Evaluator
end Calculator
