import Calculator.Proofs.Evaluator.Nesting
import Calculator.Proofs.Grammar.Names
import Calculator.Proofs.Text.Decimal

/-!
# The forms of trees

Both texts of a tree are written in the same way, with other symbols in other
places: a number or a variable is a word, a call is a word with the texts of
its arguments, and everything else is an operation, whose mark tells which one.
The form of a tree and the parts of the form determine the tree, except for its
places.
-/

namespace Calculator
namespace Expr

/-! ### Words -/

/-- The characters of names and numbers. -/
def isWordCharacter (character : Char) : Bool :=
  character.isAlphanum || character == '-'

/-- One or more characters of names and numbers. -/
structure IsWord (word : String) : Prop where
  nonempty : word.toList ≠ []
  characters : ∀ character ∈ word.toList, isWordCharacter character = true

/-- No word begins with what opens a tree or closes it. -/
theorem IsWord.exists_begins {word : String} (isWord : IsWord word)
    (rest : List Char) :
    ∃ next after, word.toList ++ rest = next :: after ∧ next ≠ '(' ∧
      next ≠ ')' := by
  obtain ⟨next, after, word_eq⟩ := List.exists_cons_of_ne_nil isWord.nonempty
  have isWordCharacter := isWord.characters next (word_eq ▸ List.mem_cons_self)
  refine ⟨next, after ++ rest, by rw [word_eq, List.cons_append], ?_, ?_⟩
  · rintro rfl
    cases isWordCharacter
  · rintro rfl
    cases isWordCharacter

theorem IsWord.ne_parenthesis {word : String} (isWord : IsWord word)
    (rest later : List Char) : word.toList ++ rest ≠ '(' :: later := by
  obtain ⟨next, after, begins, next_ne, _⟩ := isWord.exists_begins rest
  rw [begins]
  exact fun same => next_ne (List.cons.inj same).1

theorem isWord_of_isIdentifier {name : String}
    (identifier : IsIdentifier name) : IsWord name := by
  obtain ⟨begins, goesOn⟩ := isIdentifier_iff.mp identifier
  rw [List.all_eq_true] at goesOn
  cases characters_eq : name.toList with
  | nil =>
      rw [characters_eq] at begins
      cases begins
  | cons first rest =>
      rw [characters_eq] at begins goesOn
      have isAlpha : first.isAlpha = true := by simpa using begins
      refine ⟨by simp [characters_eq], ?_⟩
      rw [characters_eq]
      refine List.forall_mem_cons.mpr ⟨?_, fun character among => ?_⟩
      · simp [isWordCharacter, Char.isAlphanum, isAlpha]
      · simp [isWordCharacter, goesOn character among]

theorem isWord_decimal (value : Int64) : IsWord (Decimal.text value) := by
  have every : ∀ character ∈ Decimal.digits value.toInt.natAbs,
      isWordCharacter character = true := by
    intro character among
    simp [isWordCharacter, Char.isAlphanum,
      Decimal.isDigit_of_mem_digits among]
  have characters_ne := Decimal.digits_ne_nil value.toInt.natAbs
  by_cases negative : value < 0
  · refine ⟨by simp [Decimal.text, negative], ?_⟩
    rw [Decimal.text, if_pos negative, String.toList_ofList]
    exact List.forall_mem_cons.mpr ⟨rfl, every⟩
  · refine ⟨by simpa [Decimal.text, negative] using characters_ne, ?_⟩
    rw [Decimal.text, if_neg negative, String.toList_ofList]
    exact every

/-- Numbers are no names. -/
theorem decimal_ne_of_isIdentifier {value : Int64} {name : String}
    (identifier : IsIdentifier name) : Decimal.text value ≠ name := by
  rintro rfl
  have begins := (isIdentifier_iff.mp identifier).1
  by_cases negative : value < 0
  · rw [Decimal.text, if_pos negative, String.toList_ofList] at begins
    cases begins
  · rw [Decimal.text, if_neg negative, String.toList_ofList] at begins
    obtain ⟨first, rest, digits_eq⟩ := List.exists_cons_of_ne_nil
      (Decimal.digits_ne_nil value.toInt.natAbs)
    have isDigit : first.isDigit = true :=
      Decimal.isDigit_of_mem_digits (digits_eq ▸ List.mem_cons_self)
    have isAlpha : first.isAlpha = true := by simpa [digits_eq] using begins
    rw [Text.notDigit_of_isAlpha isAlpha] at isDigit
    cases isDigit

/-- Characters of one kind in front of others can be told from them. -/
theorem run_cancel {accepts : Char → Bool} {first second rest later : List Char}
    (accepted : ∀ character ∈ first, accepts character = true)
    (accepted' : ∀ character ∈ second, accepts character = true)
    (ends : ∀ next ∈ rest.head?, accepts next = false)
    (ends' : ∀ next ∈ later.head?, accepts next = false)
    (same : first ++ rest = second ++ later) :
    first = second ∧ rest = later := by
  have stops : ∀ {others : List Char},
      (∀ next ∈ others.head?, accepts next = false) →
        others.takeWhile accepts = [] := by
    intro others ends
    cases others with
    | nil => rfl
    | cons next others => simp [ends next rfl]
  have taken := congrArg (List.takeWhile accepts) same
  rw [List.takeWhile_append_of_pos accepted, stops ends,
    List.takeWhile_append_of_pos accepted', stops ends', List.append_nil,
    List.append_nil] at taken
  subst taken
  exact ⟨rfl, List.append_cancel_left same⟩

/-! ### Marks -/

/-- What an operation is marked with. -/
inductive Mark
  | binary (operator : Operator)
  | assign
  | conditional

/-- The symbols of assignments and conditionals, beside those of operators. -/
structure Symbols where
  assign : String
  conditional : String
  different : assign ≠ conditional
  assign_ne : ∀ operator : Operator, operator.symbol ≠ assign
  conditional_ne : ∀ operator : Operator, operator.symbol ≠ conditional
  assign_noBlank : ' ' ∉ assign.toList
  conditional_noBlank : ' ' ∉ conditional.toList

namespace Symbols

/-- The symbols between operands. -/
def infixSymbols : Symbols where
  assign := "="
  conditional := "?"
  different := by decide
  assign_ne operator := by cases operator <;> decide
  conditional_ne operator := by cases operator <;> decide
  assign_noBlank := by decide
  conditional_noBlank := by decide

/-- The symbols in front of operands. -/
def lispSymbols : Symbols where
  assign := "setq"
  conditional := "if"
  different := by decide
  assign_ne operator := by cases operator <;> decide
  conditional_ne operator := by cases operator <;> decide
  assign_noBlank := by decide
  conditional_noBlank := by decide

variable (symbols : Symbols)

/-- The symbol of a mark. -/
def symbol : Mark → String
  | .binary operator => operator.symbol
  | .assign => symbols.assign
  | .conditional => symbols.conditional

theorem operator_symbol_injective : Function.Injective Operator.symbol := by
  intro first second same
  cases first <;> cases second <;> simp [Operator.symbol] at same ⊢

theorem symbol_injective : Function.Injective symbols.symbol := by
  intro first second same
  cases first with
  | binary operator =>
      cases second with
      | binary other =>
          exact congrArg Mark.binary (operator_symbol_injective same)
      | assign => exact absurd same (symbols.assign_ne operator)
      | conditional => exact absurd same (symbols.conditional_ne operator)
  | assign =>
      cases second with
      | binary other => exact absurd same.symm (symbols.assign_ne other)
      | assign => rfl
      | conditional => exact absurd same symbols.different
  | conditional =>
      cases second with
      | binary other => exact absurd same.symm (symbols.conditional_ne other)
      | assign => exact absurd same.symm symbols.different
      | conditional => rfl

theorem blank_not_mem_symbol (mark : Mark) :
    ' ' ∉ (symbols.symbol mark).toList := by
  cases mark with
  | binary operator =>
      change ' ' ∉ operator.symbol.toList
      cases operator <;> decide
  | assign => exact symbols.assign_noBlank
  | conditional => exact symbols.conditional_noBlank

/-- A symbol ends at the blank after it. -/
theorem symbol_cancel {first second : Mark} {rest later : List Char}
    (same : (symbols.symbol first).toList ++ ' ' :: rest =
      (symbols.symbol second).toList ++ ' ' :: later) :
    first = second ∧ rest = later := by
  have accepted : ∀ mark, ∀ character ∈ (symbols.symbol mark).toList,
      (character != ' ') = true := by
    intro mark character among
    rw [bne_iff_ne]
    rintro rfl
    exact symbols.blank_not_mem_symbol mark among
  obtain ⟨symbol_eq, rest_eq⟩ := run_cancel (accepted first) (accepted second)
    (by simp) (by simp) same
  exact ⟨symbols.symbol_injective (String.toList_inj.mp symbol_eq),
    List.cons.inj rest_eq |>.2⟩

end Symbols

/-! ### Forms -/

/-- How a tree is written: as a word, as a call, or as an operation on a first
operand and others. -/
inductive Form
  | word (characters : String)
  | call (callee : String) (arguments : List Expr)
  | operation (mark : Mark) (first : Expr) (others : List Expr)

/-- The form of a tree. -/
def form : Expr → Form
  | .literal value _ => .word (Decimal.text value)
  | .var name => .word name.text
  | .binary operator left right => .operation (.binary operator) left [right]
  | .assign target value => .operation .assign target [value]
  | .conditional test onTrue onFalse =>
    .operation .conditional test [onTrue, onFalse]
  | .call callee arguments _ => .call callee.text arguments

/-- The text of an operation from its mark and the texts of its operands. -/
abbrev Layout :=
  Mark → String → List String → String

/-- The text of a form from the texts of its parts. -/
def Form.text (layout : Layout) (separator : String) (text : Expr → String) :
    Form → String
  | .word characters => characters
  | .call callee arguments =>
    callee ++ "(" ++ separator.intercalate (arguments.map text) ++ ")"
  | .operation mark first others =>
    "(" ++ layout mark (text first) (others.map text) ++ ")"

/-- The mark after the first operand. -/
def infixLayout : Layout :=
  fun mark first others =>
    first ++ " " ++ Symbols.infixSymbols.symbol mark ++ " " ++
      " : ".intercalate others

/-- The mark in front of all operands. -/
def lispLayout : Layout :=
  fun mark first others =>
    Symbols.lispSymbols.symbol mark ++ " " ++ " ".intercalate (first :: others)

theorem infixText_eq_form (expression : Expr) :
    expression.infixText = expression.form.text infixLayout "," infixText := by
  cases expression with
  | literal | var => rfl
  | binary | assign | conditional =>
      simp only [infixText, form, Form.text, infixLayout, List.map_cons,
        List.map_nil, String.intercalate_singleton,
        String.intercalate_cons_cons, String.append_assoc]
      rfl
  | call =>
      rw [infixText, infixTexts_eq_map]
      rfl

theorem lispText_eq_form (expression : Expr) :
    expression.lispText = expression.form.text lispLayout " " lispText := by
  cases expression with
  | literal | var => rfl
  | binary | assign | conditional =>
      simp only [lispText, form, Form.text, lispLayout, List.map_cons,
        List.map_nil, String.intercalate_singleton,
        String.intercalate_cons_cons, String.append_assoc]
      rfl
  | call =>
      rw [lispText, lispTexts_eq_map]
      rfl

/-- The trees that a form is made of. -/
def Form.parts : Form → List Expr
  | .word _ => []
  | .call _ arguments => arguments
  | .operation _ first others => first :: others

theorem height_lt_of_mem_parts {expression part : Expr}
    (isPart : part ∈ expression.form.parts) :
    part.height < expression.height := by
  cases expression with
  | literal | var => cases isPart
  | binary | assign =>
      simp only [form, Form.parts, List.mem_cons, List.not_mem_nil,
        or_false] at isPart
      rw [height]
      rcases isPart with rfl | rfl <;> omega
  | conditional =>
      simp only [form, Form.parts, List.mem_cons, List.not_mem_nil,
        or_false] at isPart
      rw [height]
      rcases isPart with rfl | rfl | rfl <;> omega
  | call => exact Nat.lt_succ_of_le (height_le_greatestHeight isPart)

theorem mem_nodes_of_mem_parts {expression part : Expr}
    (isPart : part ∈ expression.form.parts) : part ∈ expression.nodes := by
  cases expression with
  | literal | var => cases isPart
  | binary | assign =>
      simp only [form, Form.parts, List.mem_cons, List.not_mem_nil,
        or_false] at isPart
      rcases isPart with rfl | rfl <;> simp [nodes]
  | conditional =>
      simp only [form, Form.parts, List.mem_cons, List.not_mem_nil,
        or_false] at isPart
      rcases isPart with rfl | rfl | rfl <;> simp [nodes]
  | call => exact mem_nodes_of_mem_arguments isPart

/-- All names of a tree are identifiers, the keyword among them. -/
def HasIdentifiers (expression : Expr) : Prop :=
  ∀ name ∈ expression.names, IsIdentifier name

instance : DecidablePred HasIdentifiers :=
  fun expression =>
    inferInstanceAs (Decidable (∀ name ∈ expression.names, IsIdentifier name))

theorem HasIdentifiers.part {expression part : Expr}
    (identifiers : expression.HasIdentifiers)
    (isPart : part ∈ expression.form.parts) : part.HasIdentifiers := by
  have subset : part.nodes ⊆ expression.nodes :=
    hasParts_nodes expression part (mem_nodes_of_mem_parts isPart)
  intro name named
  exact identifiers name (List.filterMap_subset name? subset named)

theorem isWord_of_form {expression : Expr} {word : String}
    (identifiers : expression.HasIdentifiers)
    (form_eq : expression.form = .word word) : IsWord word := by
  cases expression with
  | literal value span =>
      cases form_eq
      exact isWord_decimal value
  | var name =>
      cases form_eq
      exact isWord_of_isIdentifier (identifiers name.text (by simp))
  | binary | assign | conditional | call => cases form_eq

theorem isWord_callee_of_form {expression : Expr} {callee : String}
    {arguments : List Expr} (identifiers : expression.HasIdentifiers)
    (form_eq : expression.form = .call callee arguments) : IsWord callee := by
  cases expression with
  | call callee arguments close =>
      cases form_eq
      exact isWord_of_isIdentifier (identifiers callee.text (by simp))
  | literal | var | binary | assign | conditional => cases form_eq

/-! ### Trees from their forms -/

section Alike

variable {first second : Expr}

theorem eraseSpans_eq_of_word {word : String}
    (identifiers : first.HasIdentifiers)
    (identifiers' : second.HasIdentifiers) (form_eq : first.form = .word word)
    (form_eq' : second.form = .word word) :
    first.eraseSpans = second.eraseSpans := by
  cases first with
  | literal value span =>
      injection form_eq with word_eq
      cases second with
      | literal other span =>
          injection form_eq' with other_eq
          have value_eq : value = other := by
            rw [← Decimal.value_text value, word_eq, ← other_eq,
              Decimal.value_text]
          rw [value_eq]
          rfl
      | var name =>
          injection form_eq' with name_eq
          exact absurd (word_eq.trans name_eq.symm)
            (decimal_ne_of_isIdentifier (identifiers' name.text (by simp)))
      | binary | assign | conditional | call => cases form_eq'
  | var name =>
      injection form_eq with word_eq
      cases second with
      | literal value span =>
          injection form_eq' with value_eq
          exact absurd (value_eq.trans word_eq.symm)
            (decimal_ne_of_isIdentifier (identifiers name.text (by simp)))
      | var other =>
          injection form_eq' with other_eq
          rw [eraseSpans, eraseSpans, word_eq, other_eq]
      | binary | assign | conditional | call => cases form_eq'
  | binary | assign | conditional | call => cases form_eq

theorem eraseSpans_eq_of_call {callee : String} {arguments others : List Expr}
    (form_eq : first.form = .call callee arguments)
    (form_eq' : second.form = .call callee others)
    (same : arguments.map eraseSpans = others.map eraseSpans) :
    first.eraseSpans = second.eraseSpans := by
  cases first with
  | call callee arguments close =>
      cases second with
      | call callee' others close' =>
          injection form_eq with callee_eq arguments_eq
          injection form_eq' with callee_eq' others_eq
          rw [eraseSpans, eraseSpans, eraseAllSpans_eq_map,
            eraseAllSpans_eq_map, callee_eq, callee_eq', arguments_eq,
            others_eq, same]
      | literal | var | binary | assign | conditional => cases form_eq'
  | literal | var | binary | assign | conditional => cases form_eq

theorem eraseSpans_eq_of_operation {mark : Mark} {operand operand' : Expr}
    {others others' : List Expr}
    (form_eq : first.form = .operation mark operand others)
    (form_eq' : second.form = .operation mark operand' others')
    (same : operand.eraseSpans = operand'.eraseSpans)
    (sameOthers : others.map eraseSpans = others'.map eraseSpans) :
    first.eraseSpans = second.eraseSpans := by
  cases first <;> cases form_eq <;> cases second <;> cases form_eq' <;>
    simp_all [eraseSpans]

end Alike

end Expr
end Calculator
