import Calculator.Console.Options
import Mathlib.Tactic.SplitIfs

/-!
# Arguments that are added

Arguments are looked at one by one, so that one more of them only adds what it
asks for by itself.  An argument that asks for debugging may stand anywhere, and
the name of a script may stand anywhere among flags.
-/

namespace Calculator
namespace Console
namespace Options

/-- An argument that cannot be the name of a script. -/
def IsFlag (argument : String) : Prop :=
  argument = "-h" ∨ ['-', '-'].isPrefixOf argument.toList = true

instance (argument : String) : Decidable (IsFlag argument) :=
  inferInstanceAs (Decidable (_ ∨ _))

variable {options more : Options} {argument : String} {arguments : List String}

/-! ### One argument -/

/-- An argument has the same effect while debugging. -/
theorem add_debugs (options : Options) (argument : String) :
    add { options with debugs := true } argument =
      (options.add argument).map ({ · with debugs := true }) := by
  unfold add
  split_ifs <;> rfl

/-- A flag has the same effect when a script is named. -/
theorem add_script (isFlag : IsFlag argument) (options : Options)
    (script : Option String) :
    add { options with script } argument =
      (options.add argument).map ({ · with script }) := by
  unfold add
  split_ifs with _ _ help dashes
  · rfl
  · rfl
  · rfl
  · rfl
  all_goals
    rcases isFlag with short | long
    · exact absurd (.inl short) help
    · exact absurd long dashes

/-- What is no flag is the name of a script. -/
theorem add_of_not_isFlag (isName : ¬IsFlag argument)
    (unnamed : options.script = none) :
    options.add argument = .ok { options with script := some argument } := by
  have short : argument ≠ "-h" := fun same => isName (.inl same)
  have dashes : ¬['-', '-'].isPrefixOf argument.toList = true :=
    fun long => isName (.inr long)
  have different : ∀ flag, IsFlag flag → argument ≠ flag :=
    fun flag isFlag same => isName (same ▸ isFlag)
  simp [add, short, dashes, unnamed, different "--no-prelude" (by decide),
    different "--debug" (by decide), different "--help" (by decide)]

/-- Only one argument asks for debugging. -/
theorem debugs_of_add (plain : argument ≠ "--debug")
    (added : options.add argument = .ok more) :
    more.debugs = options.debugs := by
  unfold add at added
  split_ifs at added <;> cases added <;> rfl

/-- A flag names no script. -/
theorem script_of_add (isFlag : IsFlag argument)
    (added : options.add argument = .ok more) :
    more.script = options.script := by
  have renamed := add_script isFlag options options.script
  rw [added] at renamed
  have same : more = { more with script := options.script } :=
    Except.ok.inj renamed
  rw [same]

/-! ### All arguments -/

theorem addAll_cons (options : Options) (argument : String)
    (arguments : List String) :
    options.addAll (argument :: arguments) = (do
      let more ← options.add argument
      more.addAll arguments) :=
  rfl

theorem addAll_append (options : Options) (before after : List String) :
    options.addAll (before ++ after) = (do
      let more ← options.addAll before
      more.addAll after) := by
  induction before generalizing options with
  | nil => rfl
  | cons argument before induction =>
      rw [List.cons_append, addAll_cons, addAll_cons]
      cases options.add argument with
      | error reason => rfl
      | ok more => exact induction more

/-- What makes no difference to any of the arguments makes none to all. -/
theorem addAll_map {update : Options → Options}
    (same : ∀ argument ∈ arguments, ∀ options,
      (update options).add argument = (options.add argument).map update)
    (options : Options) :
    (update options).addAll arguments =
      (options.addAll arguments).map update := by
  induction arguments generalizing options with
  | nil => rfl
  | cons argument arguments induction =>
      rw [List.forall_mem_cons] at same
      rw [addAll_cons, addAll_cons, same.1]
      cases options.add argument with
      | error reason => rfl
      | ok more => exact induction same.2 more

/-- What none of the arguments changes stays as it is. -/
theorem observe_of_addAll {Observed : Type} {observe : Options → Observed}
    (kept : ∀ argument ∈ arguments, ∀ options more,
      options.add argument = .ok more → observe more = observe options)
    (added : options.addAll arguments = .ok more) :
    observe more = observe options := by
  induction arguments generalizing options with
  | nil =>
      cases added
      rfl
  | cons argument arguments induction =>
      rw [List.forall_mem_cons] at kept
      rw [addAll_cons] at added
      cases first : options.add argument with
      | error reason =>
          rw [first] at added
          cases added
      | ok next =>
          rw [first] at added
          rw [induction kept.2 added]
          exact kept.1 options next first

/-- An argument in the middle changes the options in the end, if it makes no
difference to those after it. -/
theorem ofArguments_insert {update : Options → Options}
    {before after : List String}
    (adds : ∀ options, addAll {} before = .ok options →
      options.add argument = .ok (update options))
    (same : ∀ argument ∈ after, ∀ options,
      (update options).add argument = (options.add argument).map update) :
    ofArguments (before ++ argument :: after) =
      (ofArguments (before ++ after)).map update := by
  unfold ofArguments
  rw [addAll_append, addAll_append]
  cases started : addAll {} before with
  | error reason => rfl
  | ok options =>
      calc
        options.addAll (argument :: after) =
            (do
              let more ← options.add argument
              more.addAll after) :=
          addAll_cons options argument after
        _ = (update options).addAll after := by
          rw [adds options started]
          rfl
        _ = (options.addAll after).map update := addAll_map same options

/-- To ask for debugging anywhere does nothing else. -/
theorem ofArguments_insert_debug (before after : List String) :
    ofArguments (before ++ "--debug" :: after) =
      (ofArguments (before ++ after)).map ({ · with debugs := true }) :=
  ofArguments_insert (fun _ _ => rfl)
    fun argument _ options => add_debugs options argument

/-- To name a script anywhere among flags does nothing else. -/
theorem ofArguments_insert_script {before after : List String} {script : String}
    (isName : ¬IsFlag script) (flags : ∀ flag ∈ before ++ after, IsFlag flag) :
    ofArguments (before ++ script :: after) =
      (ofArguments (before ++ after)).map
        ({ · with script := some script }) := by
  rw [List.forall_mem_append] at flags
  apply ofArguments_insert
  · intro options started
    refine add_of_not_isFlag isName ?_
    exact observe_of_addAll (fun flag member _ _ added =>
      script_of_add (flags.1 flag member) added) started
  · intro flag member options
    exact add_script (flags.2 flag member) options (some script)

/-- Unless an argument asks for debugging, there is none. -/
theorem debugs_of_ofArguments (plain : "--debug" ∉ arguments)
    (understood : ofArguments arguments = .ok options) :
    options.debugs = false := by
  refine observe_of_addAll (fun argument member _ _ added => ?_) understood
  refine debugs_of_add ?_ added
  rintro rfl
  exact plain member

/-- Flags name no script. -/
theorem script_of_ofArguments (flags : ∀ flag ∈ arguments, IsFlag flag)
    (understood : ofArguments arguments = .ok options) :
    options.script = none :=
  observe_of_addAll
    (fun flag member _ _ added => script_of_add (flags flag member) added)
    understood

end Options
end Console
end Calculator
