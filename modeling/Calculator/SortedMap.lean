/-!
# Sorted maps

Finite maps from names to values, kept as a list of entries in the strict order
of their names.  The order of strings by code points is the order of their
UTF-8 bytes.  Since the entries are sorted, two maps with the same bindings are
equal.
-/

namespace Calculator

/-- The strict order of entries by their names. -/
def NamesIncrease {Value : Type} (entries : List (String × Value)) : Prop :=
  entries.Pairwise fun first second => first.1 < second.1

namespace SortedMap

variable {Value : Type}

/-- The value that a list of entries binds a name to. -/
def findAmong? (name : String) : List (String × Value) → Option Value
  | [] => none
  | entry :: rest =>
    if entry.1 = name then some entry.2 else findAmong? name rest

/-- Puts an entry at its place among sorted entries; an entry of that name is
replaced. -/
def insertEntry (name : String) (value : Value) :
    List (String × Value) → List (String × Value)
  | [] => [(name, value)]
  | entry :: rest =>
    if name < entry.1 then (name, value) :: entry :: rest
    else if name = entry.1 then (name, value) :: rest
    else entry :: insertEntry name value rest

theorem mem_insertEntry {name : String} {value : Value}
    {entry : String × Value} {entries : List (String × Value)}
    (member : entry ∈ insertEntry name value entries) :
    entry = (name, value) ∨ entry ∈ entries := by
  induction entries with
  | nil => simpa [insertEntry] using member
  | cons first rest induction =>
    unfold insertEntry at member
    split at member
    · simpa using member
    · split at member
      · simp only [List.mem_cons] at member ⊢
        exact member.imp_right .inr
      · simp only [List.mem_cons] at member ⊢
        rcases member with isFirst | later
        · exact .inr (.inl isFirst)
        · exact (induction later).imp_right .inr

theorem namesIncrease_insertEntry (name : String) (value : Value)
    {entries : List (String × Value)} (sorted : NamesIncrease entries) :
    NamesIncrease (insertEntry name value entries) := by
  unfold NamesIncrease at *
  induction entries with
  | nil => simp [insertEntry]
  | cons first rest induction =>
    have rest_sorted := sorted.of_cons
    have first_lt := (List.pairwise_cons.mp sorted).1
    unfold insertEntry
    split
    · next before =>
      refine .cons ?_ sorted
      intro entry member
      rcases List.mem_cons.mp member with rfl | later
      · exact before
      · exact String.lt_trans before (first_lt entry later)
    · next notBefore =>
      split
      · next same =>
        refine .cons ?_ rest_sorted
        intro entry member
        exact same ▸ first_lt entry member
      · next different =>
        refine .cons ?_ (induction rest_sorted)
        intro entry member
        rcases mem_insertEntry member with rfl | later
        · exact Std.lt_of_le_of_ne (String.not_lt.mp notBefore)
            (Ne.symm different)
        · exact first_lt entry later

end SortedMap

/-- A finite map from names to values. -/
structure SortedMap (Value : Type) where
  entries : List (String × Value)
  sorted : NamesIncrease entries

namespace SortedMap

variable {Value : Type}

/-- The map that binds nothing. -/
def empty : SortedMap Value :=
  ⟨[], .nil⟩

/-- The value that a name is bound to. -/
def find? (map : SortedMap Value) (name : String) : Option Value :=
  findAmong? name map.entries

/-- Binds a name to a value, in place of its value so far if it has one. -/
def insert (map : SortedMap Value) (name : String) (value : Value) :
    SortedMap Value :=
  ⟨insertEntry name value map.entries,
    namesIncrease_insertEntry name value map.sorted⟩

/-- Whether a name is bound. -/
def contains (map : SortedMap Value) (name : String) : Bool :=
  (map.find? name).isSome

/-- The number of names that are bound. -/
def size (map : SortedMap Value) : Nat :=
  map.entries.length

/-- Whether no name is bound. -/
def isEmpty (map : SortedMap Value) : Bool :=
  map.entries.isEmpty

/-- Two maps with the same entries are the same map. -/
@[ext] theorem ext {first second : SortedMap Value}
    (same : first.entries = second.entries) : first = second := by
  cases first
  cases second
  congr

instance [DecidableEq Value] : DecidableEq (SortedMap Value) :=
  fun first second =>
    decidable_of_iff (first.entries = second.entries)
      ⟨ext, congrArg entries⟩

theorem findAmong?_insertEntry (name other : String) (value : Value)
    (entries : List (String × Value)) :
    findAmong? other (insertEntry name value entries) =
      if name = other then some value else findAmong? other entries := by
  induction entries with
  | nil => rfl
  | cons first rest induction =>
    unfold insertEntry
    split
    · simp only [findAmong?]
    · split
      · next same =>
        subst same
        simp only [findAmong?]
        split <;> rfl
      · next different =>
        simp only [findAmong?, induction]
        split
        · next isFirst =>
          rw [if_neg fun same => different (same.trans isFirst.symm)]
        · rfl

@[simp] theorem find?_insert (map : SortedMap Value) (name other : String)
    (value : Value) :
    (map.insert name value).find? other =
      if name = other then some value else map.find? other :=
  findAmong?_insertEntry name other value map.entries

@[simp] theorem find?_empty (name : String) :
    (empty : SortedMap Value).find? name = none :=
  rfl

theorem findAmong?_eq_none_of_lt {name : String}
    {entries : List (String × Value)}
    (below : ∀ entry ∈ entries, name < entry.1) :
    findAmong? name entries = none := by
  induction entries with
  | nil => rfl
  | cons first rest induction =>
    have ⟨belowFirst, belowRest⟩ := List.forall_mem_cons.mp below
    have different : first.1 ≠ name := by
      intro same
      rw [same] at belowFirst
      exact String.lt_irrefl name belowFirst
    rw [findAmong?, if_neg different]
    exact induction belowRest

/-- The first name of some entries is not below that of others, if it is bound
among these as well. -/
theorem not_lt_of_findAmong? {first second : String × Value}
    {rest later : List (String × Value)}
    (sorted : NamesIncrease (second :: later))
    (same : findAmong? first.1 (first :: rest) =
      findAmong? first.1 (second :: later)) : ¬first.1 < second.1 := by
  intro before
  have absent : findAmong? first.1 (second :: later) = none := by
    apply findAmong?_eq_none_of_lt
    intro entry member
    rcases List.mem_cons.mp member with rfl | behind
    · exact before
    · exact String.lt_trans before
        ((List.pairwise_cons.mp sorted).1 entry behind)
  rw [absent, findAmong?, if_pos rfl] at same
  cases same

theorem eq_of_findAmong?_eq {first second : List (String × Value)}
    (sortedFirst : NamesIncrease first) (sortedSecond : NamesIncrease second)
    (same : ∀ name, findAmong? name first = findAmong? name second) :
    first = second := by
  induction first generalizing second with
  | nil =>
    cases second with
    | nil => rfl
    | cons entry rest =>
      have impossible := same entry.1
      simp [findAmong?] at impossible
  | cons entry rest induction =>
    cases second with
    | nil =>
      have impossible := same entry.1
      simp [findAmong?] at impossible
    | cons other later =>
      have ⟨belowRest, sortedRest⟩ := List.pairwise_cons.mp sortedFirst
      have ⟨belowLater, sortedLater⟩ := List.pairwise_cons.mp sortedSecond
      have name_eq : entry.1 = other.1 :=
        String.le_antisymm
          (String.not_lt.mp
            (not_lt_of_findAmong? sortedFirst (same other.1).symm))
          (String.not_lt.mp (not_lt_of_findAmong? sortedSecond (same entry.1)))
      have value_eq : entry.2 = other.2 := by
        simpa [findAmong?, name_eq] using same entry.1
      have rest_eq : rest = later := by
        apply induction sortedRest sortedLater
        intro name
        by_cases isFirst : entry.1 = name
        · rw [findAmong?_eq_none_of_lt (isFirst ▸ belowRest),
            findAmong?_eq_none_of_lt (isFirst ▸ name_eq ▸ belowLater)]
        · have same := same name
          rwa [findAmong?, findAmong?, if_neg isFirst,
            if_neg (name_eq ▸ isFirst)] at same
      rw [rest_eq, Prod.ext name_eq value_eq]

/-- Two maps that bind all names alike are the same map. -/
theorem ext_find? {first second : SortedMap Value}
    (same : ∀ name, first.find? name = second.find? name) : first = second :=
  ext (eq_of_findAmong?_eq first.sorted second.sorted same)

end SortedMap
end Calculator
