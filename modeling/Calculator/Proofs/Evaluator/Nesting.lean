import Calculator.Grammar.Rule
import Calculator.Proofs.Evaluator.Bounds
import Calculator.Proofs.Evaluator.Moves
import Calculator.Proofs.Grammar.Trees

/-!
# Heights and nesting

An expression is nested inside the frames around it.  Each function body that is
active, and the request itself, accounts for no more frames than its height, so
that the nesting stays below the greatest height times their number.
-/

namespace Calculator

namespace Expr

theorem height_le_greatestHeight {argument : Expr} {arguments : List Expr}
    (given : argument ∈ arguments) :
    argument.height ≤ greatestHeight arguments := by
  induction arguments with
  | nil => cases given
  | cons first rest induction =>
      rw [greatestHeight]
      rcases List.mem_cons.mp given with rfl | later
      · exact Nat.le_max_left _ _
      · exact Nat.le_trans (induction later) (Nat.le_max_right _ _)

theorem height_lt_of_mem_operands {expression part : Expr}
    (operand : part ∈ expression.operands) :
    part.height < expression.height := by
  cases expression with
  | literal | var => cases operand
  | binary operator left right =>
      simp only [operands, List.mem_cons, List.not_mem_nil, or_false] at operand
      rw [height]
      rcases operand with rfl | rfl <;> omega
  | assign target value =>
      obtain rfl := List.mem_singleton.mp operand
      rw [height]
      omega
  | conditional test onTrue onFalse =>
      simp only [operands, List.mem_cons, List.not_mem_nil, or_false] at operand
      rw [height]
      rcases operand with rfl | rfl | rfl <;> omega
  | call callee arguments close =>
      have argument_le : part.height ≤ greatestHeight arguments :=
        height_le_greatestHeight operand
      rw [height]
      omega

end Expr

namespace Evaluator

/-- There is room for all levels of an expression inside some frames. -/
def Fits (frames : List Frame) (expression : Expr) : Prop :=
  frames.length + expression.height ≤
    Grammar.maximumHeight * (bodies frames + 1)

theorem Fits.length_lt {frames : List Frame} {expression : Expr}
    (fits : Fits frames expression) :
    frames.length < Grammar.maximumHeight * (bodies frames + 1) := by
  have positive := expression.height_pos
  unfold Fits at fits
  omega

theorem bodies_cons_of_not {frame : Frame} (notBody : frame.isBody = false)
    (outer : List Frame) : bodies (frame :: outer) = bodies outer := by
  simp [bodies, notBody]

theorem bodies_body (caller : Environment) (outer : List Frame) :
    bodies (.body caller :: outer) = bodies outer + 1 :=
  List.countP_cons_of_pos rfl

/-- With an expression there is room for its operands inside one more frame. -/
theorem Fits.operand {frames : List Frame} {frame : Frame}
    {expression part : Expr} (fits : Fits frames expression)
    (notBody : frame.isBody = false) (operand : part ∈ expression.operands) :
    Fits (frame :: frames) part := by
  have height_lt := Expr.height_lt_of_mem_operands operand
  unfold Fits at fits ⊢
  rw [bodies_cons_of_not notBody, List.length_cons]
  omega

/-- The frame around an expression does not matter unless it is a body. -/
theorem Fits.exchange {outer : List Frame} {frame other : Frame}
    {expression : Expr} (fits : Fits (frame :: outer) expression)
    (notBody : frame.isBody = false) (otherNotBody : other.isBody = false) :
    Fits (other :: outer) expression := by
  unfold Fits at fits ⊢
  rw [bodies_cons_of_not notBody] at fits
  rw [bodies_cons_of_not otherNotBody]
  exact fits

/-- With an expression there is room for the body of a function. -/
theorem Fits.body {frames : List Frame} {expression body : Expr}
    (fits : Fits frames expression)
    (height_le : body.height ≤ Grammar.maximumHeight) (caller : Environment) :
    Fits (.body caller :: frames) body := by
  have length_lt := fits.length_lt
  unfold Fits
  rw [bodies_body, List.length_cons, Nat.mul_add _ _ 1, Nat.mul_one]
  omega

/-- There is room for what is pending in a frame and for what it calls. -/
structure Frame.HasRoom (frame : Frame) (outer : List Frame) : Prop where
  pending : ∀ part ∈ frame.pending, Fits (frame :: outer) part
  call : ∀ function ∈ frame.function?, ∀ caller,
    Fits (.body caller :: outer) function.body

/-- There is room in all of some frames. -/
def AllHaveRoom : List Frame → Prop
  | [] => True
  | frame :: outer => frame.HasRoom outer ∧ AllHaveRoom outer

/-- There is room for all that is still to be evaluated. -/
structure State.HasRoom (state : State) : Prop where
  functions : ∀ name function,
    state.evaluator.functions.find? name = some function →
      function.body.height ≤ Grammar.maximumHeight
  focus : ∀ expression, state.focus = .evaluate expression →
    Fits state.frames expression
  frames : AllHaveRoom state.frames

theorem State.Moves.hasRoom {state next : State} (moves : state.Moves next)
    (room : state.HasRoom) : next.HasRoom := by
  obtain ⟨functions, focus, frames⟩ := room
  cases moves with
  | refuse => exact ⟨functions, nofun, frames⟩
  | settle settled =>
      refine ⟨functions, ?_, frames⟩
      rintro expression rfl
      exact settled.elim
  | @enter _ _ _ expression frame part _ notBody parts found =>
      have fits := focus expression rfl
      obtain ⟨isOperand, pending⟩ := List.cons_subset.mp parts
      refine ⟨functions, ?_, ⟨?_, ?_⟩, frames⟩
      · rintro _ ⟨⟩
        exact fits.operand notBody isOperand
      · intro other isPending
        exact fits.operand notBody (pending isPending)
      · intro function calls caller
        -- The function is called only later, but found in the table now.
        obtain ⟨name, found⟩ := found function calls
        exact fits.body (functions name function found) caller
  | @goOn _ _ frame next outer _ part notBody nextNotBody parts calls =>
      obtain ⟨frameRoom, outerRoom⟩ := frames
      obtain ⟨isPending, pending⟩ := List.cons_subset.mp parts
      refine ⟨functions, ?_, ⟨?_, ?_⟩, outerRoom⟩
      · rintro _ ⟨⟩
        exact (frameRoom.pending part isPending).exchange notBody nextNotBody
      · intro other stillPending
        exact (frameRoom.pending other (pending stillPending)).exchange notBody
          nextNotBody
      · intro function called
        exact frameRoom.call function (calls function called)
  | @callAtOnce _ environment _ _ expression name function _ _ found =>
      have fits := focus expression rfl
      refine ⟨functions, ?_, ⟨nofun, nofun⟩, frames⟩
      rintro _ ⟨⟩
      exact fits.body (functions name function found) environment
  | @call _ environment _ _ _ _ function _ calls _ =>
      obtain ⟨frameRoom, outerRoom⟩ := frames
      refine ⟨functions, ?_, ⟨nofun, nofun⟩, outerRoom⟩
      rintro _ ⟨⟩
      exact frameRoom.call function calls environment
  | leave idle settled =>
      rw [← Frame.functions_outside] at functions
      refine ⟨functions, ?_, frames.2⟩
      rintro expression rfl
      rcases settled with settled | rfl
      · exact settled.elim
      · cases idle

namespace State

variable {functions : FunctionTable} {limits : Limits} {expression : Expr}
  {before : Environment} {state : State}

theorem counters_of_visits
    (visits : (start (fresh functions limits) expression before).Visits state) :
    state.evaluator =
      ⟨functions, limits, bodies state.frames, state.frames.length⟩ := by
  have counted : state.evaluator = _ := visits.counted
  rw [counted, insideAll_eq]
  simp only [fresh, Nat.zero_add]

theorem depth_le_of_visits
    (visits : (start (fresh functions limits) expression before).Visits state) :
    state.evaluator.depth ≤ limits.maximumCallDepth := by
  have within : state.WithinLimits :=
    visits.preserves Moves.withinLimits ⟨Nat.zero_le _, Nat.zero_le _⟩
  have depth_le := within.depth_le
  rw [counters_of_visits visits] at depth_le ⊢
  exact depth_le

/-- Wherever an expression is evaluated, the nesting is below the greatest
height for each body that is active and for the request itself. -/
theorem Visits.nesting_lt
    (bodies_le : ∀ name function, functions.find? name = some function →
      function.body.height ≤ Grammar.maximumHeight)
    (height_le : expression.height ≤ Grammar.maximumHeight)
    (visits : (start (fresh functions limits) expression before).Visits state)
    {part : Expr} (focus_eq : state.focus = .evaluate part) :
    state.evaluator.nesting <
      Grammar.maximumHeight * (state.evaluator.depth + 1) := by
  have fits : Fits [] expression := by
    unfold Fits
    simpa [bodies] using height_le
  have begins : (start (fresh functions limits) expression before).HasRoom := by
    refine ⟨bodies_le, ?_, trivial⟩
    rintro _ ⟨⟩
    exact fits
  have room := visits.preserves Moves.hasRoom begins
  rw [counters_of_visits visits]
  exact (room.focus part focus_eq).length_lt

/-- An evaluation whose nesting gets too deep has come to a full state. -/
theorem exists_full_of_nestingTooDeep {limit : Nat}
    (fails : ((fresh functions limits).evaluate expression before).outcome =
      .error (.nestingTooDeep limit)) :
    ∃ full, (start (fresh functions limits) expression before).Visits full ∧
      full.Full := by
  obtain ⟨last, visits, done⟩ :=
    exists_last (start (fresh functions limits) expression before)
  exact visits.exists_full rfl (focus_of_done done fails)

end State

end Evaluator
end Calculator
