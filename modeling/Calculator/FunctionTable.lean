import Calculator.SortedMap
import Calculator.Statement

/-!
# Function tables

The functions that are defined, by name.  A call finds its function in the
table when it is evaluated, so functions may call themselves and each other,
and a new definition of a name takes the place of the old one.
-/

namespace Calculator

/-- The functions that are defined. -/
structure FunctionTable where
  functions : SortedMap FunctionDefinition

namespace FunctionTable

/-- The table without any function. -/
def empty : FunctionTable :=
  ⟨.empty⟩

/-- The function of a name. -/
def find? (table : FunctionTable) (name : String) :
    Option FunctionDefinition :=
  table.functions.find? name

/-- Registers a function under its name. -/
def define (table : FunctionTable) (definition : FunctionDefinition) :
    FunctionTable :=
  ⟨table.functions.insert definition.name.text definition⟩

/-- Whether a function of that name is defined. -/
def contains (table : FunctionTable) (name : String) : Bool :=
  table.functions.contains name

/-- The number of functions. -/
def size (table : FunctionTable) : Nat :=
  table.functions.size

/-- Whether no function is defined. -/
def isEmpty (table : FunctionTable) : Bool :=
  table.functions.isEmpty

/-- The signatures in the order of the names. -/
def signatures (table : FunctionTable) : List Signature :=
  table.functions.entries.map fun entry => entry.2.signature

/-- The listing of a table: a line for every signature. -/
def text (table : FunctionTable) : String :=
  if table.isEmpty then "None\n"
  else String.join (table.signatures.map fun signature => signature.text ++ "\n")

@[simp] theorem find?_empty (name : String) : empty.find? name = none :=
  rfl

@[simp] theorem find?_define (table : FunctionTable)
    (definition : FunctionDefinition) (name : String) :
    (table.define definition).find? name =
      if definition.name.text = name then some definition
      else table.find? name :=
  SortedMap.find?_insert table.functions definition.name.text name definition

theorem contains_eq_isSome (table : FunctionTable) (name : String) :
    table.contains name = (table.find? name).isSome :=
  rfl

/-- Two tables with the same functions are the same table. -/
theorem ext_find? {first second : FunctionTable}
    (same : ∀ name, first.find? name = second.find? name) : first = second := by
  cases first
  cases second
  exact congrArg FunctionTable.mk (SortedMap.ext_find? same)

/-- Functions of different names may be registered in any order. -/
theorem define_comm (table : FunctionTable)
    {first second : FunctionDefinition}
    (different : first.name.text ≠ second.name.text) :
    (table.define first).define second =
      (table.define second).define first := by
  apply ext_find?
  intro name
  simp only [find?_define]
  by_cases isFirst : first.name.text = name
  · have notSecond : second.name.text ≠ name := by
      rw [← isFirst]
      exact different.symm
    rw [if_neg notSecond, if_pos isFirst, if_pos isFirst]
  · rw [if_neg isFirst, if_neg isFirst]

end FunctionTable
end Calculator
