import Calculator.Environment
import Calculator.FunctionTable
import Calculator.Proofs.Text.Bytes
import Mathlib.Data.Finset.Card

/-!
# Tables and their history

What is in a table after any operations on it, told from the operations alone.
A table of variables has the names that were read or assigned to, each with the
value that was assigned last, and a table of functions has the definition of
each name that came last.  How the operations were arranged does not matter:
tables with the same bindings are the same, in the order of the bytes of the
names.
-/

namespace Calculator

namespace SortedMap

variable {Value : Type}

theorem findAmong?_eq_some_iff {entries : List (String × Value)}
    (sorted : NamesIncrease entries) {name : String} {value : Value} :
    findAmong? name entries = some value ↔ (name, value) ∈ entries := by
  induction entries with
  | nil => simp [findAmong?]
  | cons first rest induction =>
      obtain ⟨below, restSorted⟩ := List.pairwise_cons.mp sorted
      rw [findAmong?, List.mem_cons]
      by_cases isFirst : first.1 = name
      · have absent : (name, value) ∉ rest := by
          intro later
          have less := below _ later
          rw [isFirst] at less
          exact String.lt_irrefl name less
        subst isFirst
        simp only [if_true, Option.some.injEq, absent, or_false, Prod.ext_iff,
          true_and]
        exact eq_comm
      · have notFirst : (name, value) ≠ first := by
          rintro rfl
          exact isFirst rfl
        simp only [isFirst, if_false, notFirst, false_or]
        exact induction restSorted

/-- The entries of a map are what it binds names to. -/
theorem mem_entries_iff {map : SortedMap Value} {name : String}
    {value : Value} :
    (name, value) ∈ map.entries ↔ map.find? name = some value :=
  (findAmong?_eq_some_iff map.sorted).symm

theorem nodup_names (map : SortedMap Value) :
    (map.entries.map Prod.fst).Nodup := by
  rw [List.nodup_iff_pairwise_ne, List.pairwise_map]
  refine map.sorted.imp fun less same => ?_
  rw [same] at less
  exact String.lt_irrefl _ less

/-- A map is as large as the set of names that it binds. -/
theorem size_eq_card (map : SortedMap Value) {names : Finset String}
    (bound_iff : ∀ name, name ∈ names ↔ (map.find? name).isSome) :
    map.size = names.card := by
  have names_eq : names = (map.entries.map Prod.fst).toFinset := by
    ext name
    rw [bound_iff, Option.isSome_iff_exists, List.mem_toFinset, List.mem_map]
    constructor
    · rintro ⟨value, found⟩
      exact ⟨(name, value), mem_entries_iff.mpr found, rfl⟩
    · rintro ⟨⟨_, value⟩, among, rfl⟩
      exact ⟨value, mem_entries_iff.mp among⟩
  rw [names_eq, List.toFinset_card_of_nodup map.nodup_names, List.length_map]
  rfl

theorem isEmpty_iff {map : SortedMap Value} :
    map.isEmpty = true ↔ ∀ name, map.find? name = none := by
  rw [isEmpty, List.isEmpty_iff, List.eq_nil_iff_forall_not_mem, Prod.forall]
  simp only [mem_entries_iff, Option.eq_none_iff_forall_ne_some, ne_eq]

/-- The entries are in the order of the bytes of their names. -/
theorem bytes_increase (map : SortedMap Value) :
    map.entries.Pairwise fun first second =>
      Text.bytes first.1 < Text.bytes second.1 :=
  map.sorted.imp Text.lt_iff_bytes_lt.mp

end SortedMap

namespace Environment

/-- An operation on an environment. -/
inductive Operation
  | lookup (name : String)
  | assign (name : String) (value : Int64)

namespace Operation

/-- The variable that is read or assigned to. -/
def name : Operation → String
  | .lookup name | .assign name _ => name

/-- The value that the operation assigns, if it assigns to the variable. -/
def assigned? (wanted : String) : Operation → Option Int64
  | .lookup _ => none
  | .assign name value => if name = wanted then some value else none

end Operation

/-- Carries out an operation.  A lookup has an answer. -/
def perform (environment : Environment) :
    Operation → Option Int64 × Environment
  | .lookup name =>
    let (value, after) := environment.lookup name
    (some value, after)
  | .assign name value => (none, environment.assign name value)

/-- Carries out operations one after the other, with their answers. -/
def performAll (environment : Environment) :
    List Operation → List (Option Int64) × Environment
  | [] => ([], environment)
  | operation :: rest =>
    let (answer, between) := environment.perform operation
    let (answers, after) := between.performAll rest
    (answer :: answers, after)

/-- The value that some operations, the last of them first, assign to a
variable, which is zero unless they assign to it. -/
def latestValue (reversed : List Operation) (name : String) : Int64 :=
  (reversed.findSome? (Operation.assigned? name)).getD 0

/-- The environment has come out of some operations, the last of them first. -/
structure Records (environment : Environment) (reversed : List Operation) :
    Prop where
  bound : ∀ name, (environment.find? name).isSome ↔
    name ∈ reversed.map Operation.name
  value : ∀ name, environment.value name = latestValue reversed name

theorem records_empty : Records empty [] where
  bound name := by simp
  value _ := rfl

/-- One more operation on an environment is one more in its history. -/
theorem Records.perform {environment : Environment} {reversed : List Operation}
    (records : environment.Records reversed) (operation : Operation) :
    (environment.perform operation).2.Records (operation :: reversed) := by
  cases operation with
  | lookup name =>
      refine ⟨fun other => ?_, fun other => ?_⟩
      · simp only [Environment.perform, lookup, find?_touch, List.map_cons,
          Operation.name, List.mem_cons, ← records.bound other]
        by_cases same : name = other
        · simp [same]
        · simp [same, Ne.symm same]
      · exact (value_touch environment name other).trans (records.value other)
  | assign name value =>
      refine ⟨fun other => ?_, fun other => ?_⟩
      · simp only [Environment.perform, find?_assign, List.map_cons,
          Operation.name, List.mem_cons, ← records.bound other]
        by_cases same : name = other
        · simp [same]
        · simp [same, Ne.symm same]
      · simp only [Environment.perform, value_assign, latestValue,
          List.findSome?_cons, Operation.assigned?]
        split
        · rfl
        · exact records.value other

theorem Records.performAll {environment : Environment}
    {reversed : List Operation} (records : environment.Records reversed)
    (operations : List Operation) :
    (environment.performAll operations).2.Records
      (operations.reverse ++ reversed) := by
  induction operations generalizing environment reversed with
  | nil => exact records
  | cons operation rest induction =>
      rw [List.reverse_cons, List.append_assoc]
      exact induction (records.perform operation)

/-- The bindings of an environment that has come out of some operations. -/
theorem Records.find?_eq_some_iff {environment : Environment}
    {reversed : List Operation} (records : environment.Records reversed)
    {name : String} {value : Int64} :
    environment.find? name = some value ↔
      name ∈ reversed.map Operation.name ∧
        value = latestValue reversed name := by
  rw [← records.bound, ← records.value, Environment.value]
  cases environment.find? name with
  | none => simp
  | some other => simp [eq_comm]

/-- Only where nothing was done the listing is that of nothing; otherwise it has
a line for every variable. -/
theorem Records.text_eq {environment : Environment} {reversed : List Operation}
    (records : environment.Records reversed) :
    environment.text =
      if reversed = [] then "None\n"
      else String.join (environment.toList.map fun binding =>
        binding.1 ++ " = " ++ Decimal.text binding.2 ++ "\n") := by
  have isEmpty_iff : environment.isEmpty = true ↔ reversed = [] := by
    rw [isEmpty, SortedMap.isEmpty_iff, ← List.map_eq_nil_iff,
      List.eq_nil_iff_forall_not_mem]
    refine forall_congr' fun name => ?_
    rw [← records.bound, Option.not_isSome_iff_eq_none]
    rfl
  simp only [text, isEmpty_iff]

/-- What is done later does not change the answers so far. -/
theorem performAll_append (environment : Environment)
    (operations later : List Operation) :
    environment.performAll (operations ++ later) =
      ((environment.performAll operations).1 ++
          ((environment.performAll operations).2.performAll later).1,
        ((environment.performAll operations).2.performAll later).2) := by
  induction operations generalizing environment with
  | nil => rfl
  | cons operation rest induction =>
      simp only [List.cons_append, performAll, induction]

theorem length_performAll (environment : Environment)
    (operations : List Operation) :
    (environment.performAll operations).1.length = operations.length := by
  induction operations generalizing environment with
  | nil => rfl
  | cons operation rest induction =>
      simp only [performAll, List.length_cons, induction]

/-- A lookup between other operations answers with the value that was assigned
last among those before it. -/
theorem answer_lookup (operations later : List Operation) (name : String) :
    (empty.performAll (operations ++ .lookup name :: later)).1[
        operations.length]? =
      some (some (latestValue operations.reverse name)) := by
  have records := records_empty.performAll operations
  rw [List.append_nil] at records
  rw [performAll_append]
  simp only [performAll, perform, lookup]
  rw [List.getElem?_append_right (Nat.le_of_eq (length_performAll ..)),
    length_performAll, Nat.sub_self, List.getElem?_cons_zero, records.value]

/-- Environments with the same bindings are the same. -/
theorem ext_toList {first second : Environment}
    (same : ∀ binding, binding ∈ first.toList ↔ binding ∈ second.toList) :
    first = second := by
  refine ext_find? fun name => Option.ext fun value => ?_
  rw [find?, find?, ← SortedMap.mem_entries_iff, ← SortedMap.mem_entries_iff]
  exact same (name, value)

end Environment

namespace FunctionTable

/-- Registers functions one after the other. -/
def defineAll (table : FunctionTable) (definitions : List FunctionDefinition) :
    FunctionTable :=
  definitions.foldl define table

/-- After some definitions, a name has the last that was made of it, or its
function so far. -/
theorem find?_defineAll (table : FunctionTable)
    (definitions : List FunctionDefinition) (name : String) :
    (table.defineAll definitions).find? name =
      (definitions.reverse.find? (·.name.text = name)).or
        (table.find? name) := by
  induction definitions generalizing table with
  | nil => rfl
  | cons definition rest induction =>
      rw [defineAll, List.foldl_cons, ← defineAll, induction, find?_define,
        List.reverse_cons, List.find?_append, Option.or_assoc]
      congr 1
      by_cases same : definition.name.text = name
      · simp [same]
      · simp [same]

theorem find?_defineAll_empty (definitions : List FunctionDefinition)
    (name : String) :
    (empty.defineAll definitions).find? name =
      definitions.reverse.find? (·.name.text = name) := by
  rw [find?_defineAll, find?_empty, Option.or_none]

/-- Every function of such a table is the last one that was made of its own
name. -/
theorem mem_entries_defineAll_iff {definitions : List FunctionDefinition}
    {name : String} {function : FunctionDefinition} :
    (name, function) ∈ (empty.defineAll definitions).functions.entries ↔
      definitions.reverse.find? (·.name.text = name) = some function := by
  rw [SortedMap.mem_entries_iff, ← find?_defineAll_empty]
  rfl

theorem name_of_mem_entries {definitions : List FunctionDefinition}
    {name : String} {function : FunctionDefinition}
    (among :
      (name, function) ∈ (empty.defineAll definitions).functions.entries) :
    function.name.text = name := by
  simpa using List.find?_some (mem_entries_defineAll_iff.mp among)

/-- The signatures are those of the last definition of each name. -/
theorem mem_signatures_defineAll_iff {definitions : List FunctionDefinition}
    {signature : Signature} :
    signature ∈ (empty.defineAll definitions).signatures ↔
      ∃ function, definitions.reverse.find?
          (·.name.text = function.name.text) = some function ∧
        function.signature = signature := by
  rw [signatures, List.mem_map]
  constructor
  · rintro ⟨⟨name, function⟩, among, rfl⟩
    obtain rfl := name_of_mem_entries among
    exact ⟨function, mem_entries_defineAll_iff.mp among, rfl⟩
  · rintro ⟨function, found, rfl⟩
    exact ⟨(function.name.text, function), mem_entries_defineAll_iff.mpr found,
      rfl⟩

theorem signatures_defineAll_increase (definitions : List FunctionDefinition) :
    (empty.defineAll definitions).signatures.Pairwise fun first second =>
      Text.bytes first.name < Text.bytes second.name := by
  rw [signatures, List.pairwise_map]
  refine (SortedMap.bytes_increase _).imp_of_mem ?_
  rintro ⟨name, function⟩ ⟨other, otherFunction⟩ among otherAmong less
  obtain rfl := name_of_mem_entries among
  obtain rfl := name_of_mem_entries otherAmong
  exact less

end FunctionTable

/-- Tables tell the outcome of the operations on them, and nothing else about
these.  An environment lists the variables that were read or assigned to, in the
order of their bytes, with the values assigned last or zero, which lookups
answered with on the way; its text has a line for each of them, and the same
bindings make the same environment and the same text.  A table of functions
holds the last definition of each name and no other, and lists their signatures
in the order of their bytes. -/
theorem tables_record_operations (operations : List Environment.Operation)
    (definitions : List FunctionDefinition) :
    let performed := Environment.empty.performAll operations
    let environment := performed.2
    let table := FunctionTable.empty.defineAll definitions
    (environment.toList.Pairwise fun first second =>
        Text.bytes first.1 < Text.bytes second.1) ∧
      (∀ name value, (name, value) ∈ environment.toList ↔
        name ∈ operations.map Environment.Operation.name ∧
          value = Environment.latestValue operations.reverse name) ∧
      (∀ before name later, operations = before ++ .lookup name :: later →
        performed.1[before.length]? =
          some (some (Environment.latestValue before.reverse name))) ∧
      (environment.text =
        if operations = [] then "None\n"
        else String.join (environment.toList.map fun binding =>
          binding.1 ++ " = " ++ Decimal.text binding.2 ++ "\n")) ∧
      (∀ others,
        let other := (Environment.empty.performAll others).2
        (∀ binding, binding ∈ environment.toList ↔ binding ∈ other.toList) →
          environment = other ∧ environment.text = other.text) ∧
      (∀ name, table.find? name =
        definitions.reverse.find? (·.name.text = name)) ∧
      (∀ name function, (name, function) ∈ table.functions.entries ↔
        definitions.reverse.find? (·.name.text = name) = some function) ∧
      table.size = (definitions.map (·.name.text)).toFinset.card ∧
      (∀ signature, signature ∈ table.signatures ↔
        ∃ function, definitions.reverse.find?
            (·.name.text = function.name.text) = some function ∧
          function.signature = signature) ∧
      table.signatures.Pairwise fun first second =>
        Text.bytes first.name < Text.bytes second.name := by
  intro performed environment table
  have records : environment.Records (operations.reverse ++ []) :=
    Environment.records_empty.performAll operations
  rw [List.append_nil] at records
  refine ⟨environment.bindings.bytes_increase, ?_, ?_, ?_, ?_,
    FunctionTable.find?_defineAll_empty definitions,
    fun _ _ => FunctionTable.mem_entries_defineAll_iff, ?_,
    fun _ => FunctionTable.mem_signatures_defineAll_iff,
    FunctionTable.signatures_defineAll_increase definitions⟩
  · intro name value
    have mem_iff : (name, value) ∈ environment.toList ↔
        environment.find? name = some value := SortedMap.mem_entries_iff
    rw [mem_iff, records.find?_eq_some_iff, List.map_reverse, List.mem_reverse]
  · rintro before name later rfl
    exact Environment.answer_lookup before later name
  · rw [records.text_eq]
    simp only [List.reverse_eq_nil_iff]
  · intro others other same
    have environment_eq : environment = other := Environment.ext_toList same
    exact ⟨environment_eq, congrArg Environment.text environment_eq⟩
  · apply SortedMap.size_eq_card
    intro name
    change _ ↔ (table.find? name).isSome
    rw [FunctionTable.find?_defineAll_empty, List.find?_isSome]
    simp

end Calculator
