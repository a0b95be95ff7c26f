import Calculator.SortedMap
import Calculator.Text.Decimal

/-!
# Environments

The values of variables.  Reading a variable that has no value gives it the
value zero, so reading cannot fail.
-/

namespace Calculator

/-- The bindings of variables. -/
structure Environment where
  bindings : SortedMap Int64
  deriving DecidableEq

namespace Environment

/-- The environment without any binding. -/
def empty : Environment :=
  ⟨.empty⟩

/-- The value that a variable is bound to. -/
def find? (environment : Environment) (name : String) : Option Int64 :=
  environment.bindings.find? name

/-- The value of a variable, which is zero unless it is bound. -/
def value (environment : Environment) (name : String) : Int64 :=
  (environment.find? name).getD 0

/-- Binds a variable to a value. -/
def assign (environment : Environment) (name : String) (value : Int64) :
    Environment :=
  ⟨environment.bindings.insert name value⟩

/-- The environment after a variable is read. -/
def touch (environment : Environment) (name : String) : Environment :=
  if environment.bindings.contains name then environment
  else environment.assign name 0

/-- Reads a variable. -/
def lookup (environment : Environment) (name : String) :
    Int64 × Environment :=
  (environment.value name, environment.touch name)

/-- The number of bindings. -/
def size (environment : Environment) : Nat :=
  environment.bindings.size

/-- Whether there is no binding. -/
def isEmpty (environment : Environment) : Bool :=
  environment.bindings.isEmpty

/-- The bindings in the order of their names. -/
def toList (environment : Environment) : List (String × Int64) :=
  environment.bindings.entries

/-- Binds names to values pairwise; a name without a value gets zero. -/
def bindAll (environment : Environment) :
    List String → List Int64 → Environment
  | [], _ => environment
  | name :: names, values =>
    (environment.assign name (values.headD 0)).bindAll names values.tail

/-- The listing of an environment: a line for every binding. -/
def text (environment : Environment) : String :=
  if environment.isEmpty then "None\n"
  else
    String.join <| environment.toList.map fun binding =>
      binding.1 ++ " = " ++ Decimal.text binding.2 ++ "\n"

/-- Environments that bind all variables alike are the same. -/
theorem ext_find? {first second : Environment}
    (same : ∀ name, first.find? name = second.find? name) : first = second := by
  cases first
  cases second
  exact congrArg Environment.mk (SortedMap.ext_find? same)

@[simp] theorem find?_empty (name : String) : empty.find? name = none :=
  rfl

@[simp] theorem find?_assign (environment : Environment)
    (name other : String) (value : Int64) :
    (environment.assign name value).find? other =
      if name = other then some value else environment.find? other :=
  SortedMap.find?_insert environment.bindings name other value

theorem value_assign (environment : Environment) (name other : String)
    (value : Int64) :
    (environment.assign name value).value other =
      if name = other then value else environment.value other := by
  simp only [Environment.value, find?_assign]
  split <;> rfl

/-- Reading a variable binds it to the value that it has already. -/
@[simp] theorem find?_touch (environment : Environment)
    (name other : String) :
    (environment.touch name).find? other =
      if name = other then some (environment.value name)
      else environment.find? other := by
  unfold touch
  split
  · next bound =>
    split
    · next same =>
      subst same
      obtain ⟨value, found⟩ := Option.isSome_iff_exists.mp bound
      have found : environment.find? name = some value := found
      rw [Environment.value, found, Option.getD_some]
    · rfl
  · next unbound =>
    have missing : environment.find? name = none := by
      simpa [SortedMap.contains, find?] using unbound
    rw [find?_assign, Environment.value, missing, Option.getD_none]

/-- Reading a variable changes no value. -/
@[simp] theorem value_touch (environment : Environment) (name other : String) :
    (environment.touch name).value other = environment.value other := by
  rw [Environment.value, find?_touch]
  split
  · next same => rw [same, Option.getD_some]
  · rfl

end Environment
end Calculator
