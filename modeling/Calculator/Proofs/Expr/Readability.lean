import Calculator.Proofs.Evaluator.Frame
import Calculator.Proofs.Evaluator.Places
import Calculator.Proofs.Expr.Forms
import Calculator.Proofs.Expr.Pieces

/-!
# Unique readability

Both texts of a tree tell which tree it is, except for its places.  Each is a
word, a call or an operation in parentheses; what its first parts are can be
read off before anything is known about the others, because a word ends where
no letter, digit or sign goes on and a tree ends where its parentheses close.
So a text that stands in front of others can be cancelled, and this carries an
induction on the height of the tree.
-/

namespace Calculator
namespace Expr

/-! ### Cancelling texts -/

/-- What follows a tree inside a text: nothing, or what parts or closes. -/
def Closes (rest : List Char) : Prop :=
  ∀ next ∈ rest.head?, next = ' ' ∨ next = ',' ∨ next = ')'

theorem closes_cons {next : Char} {rest : List Char}
    (closes : next = ' ' ∨ next = ',' ∨ next = ')') :
    Closes (next :: rest) := by
  rintro _ ⟨⟩
  exact closes

theorem not_closes_parenthesis (rest : List Char) : ¬Closes ('(' :: rest) := by
  intro closes
  have impossible := closes '(' rfl
  simp at impossible

theorem Closes.notWord {rest : List Char} (closes : Closes rest) :
    ∀ next ∈ rest.head?, isWordCharacter next = false := by
  intro next isNext
  rcases closes next isNext with rfl | rfl | rfl <;> rfl

/-- The texts of two trees in front of what follows them can only be the same if
the trees are the same, except for places, and the same follows. -/
def Readable (text : Expr → String) (expression : Expr) : Prop :=
  ∀ other : Expr, other.HasIdentifiers → ∀ rest later,
    Closes rest → Closes later →
      (text expression).toList ++ rest = (text other).toList ++ later →
        expression.eraseSpans = other.eraseSpans ∧ rest = later

/-- The first character of a separator parts trees. -/
def Separates (separator : String) : Prop :=
  ∃ mark after, separator.toList = mark :: after ∧ (mark = ' ' ∨ mark = ',')

theorem separates_comma : Separates "," :=
  ⟨',', [], rfl, .inr rfl⟩

theorem separates_blank : Separates " " :=
  ⟨' ', [], rfl, .inl rfl⟩

theorem separates_colon : Separates " : " :=
  ⟨' ', [':', ' '], rfl, .inl rfl⟩

section Lists

variable {text : Expr → String} {separator : String}
  (separates : Separates separator) {rest later : List Char}
include separates

theorem closes_laterTexts (texts : List String) :
    Closes (laterTexts separator texts ++ ')' :: rest) := by
  obtain ⟨mark, after, separator_eq, parts⟩ := separates
  cases texts with
  | nil => exact closes_cons (.inr (.inr rfl))
  | cons first others =>
      rw [laterTexts, List.flatMap_cons, separator_eq]
      exact closes_cons (parts.imp_right .inl)

theorem laterTexts_cancel {first second : List Expr}
    (readable : ∀ expression ∈ first, Readable text expression)
    (identifiers : ∀ expression ∈ second, expression.HasIdentifiers)
    (same : laterTexts separator (first.map text) ++ ')' :: rest =
      laterTexts separator (second.map text) ++ ')' :: later) :
    first.map eraseSpans = second.map eraseSpans ∧ rest = later := by
  obtain ⟨mark, after, separator_eq, parts⟩ := id separates
  have mark_ne : mark ≠ ')' := by
    rcases parts with rfl | rfl <;> decide
  induction first generalizing second with
  | nil =>
      cases second with
      | nil => exact ⟨rfl, (List.cons.inj same).2⟩
      | cons other others =>
          rw [List.map_cons, laterTexts, laterTexts, List.flatMap_cons,
            separator_eq] at same
          exact absurd (List.cons.inj same).1.symm mark_ne
  | cons expression expressions induction =>
      cases second with
      | nil =>
          rw [List.map_cons, laterTexts, laterTexts, List.flatMap_cons,
            separator_eq] at same
          exact absurd (List.cons.inj same).1 mark_ne
      | cons other others =>
          obtain ⟨readableFirst, readableRest⟩ :=
            List.forall_mem_cons.mp readable
          obtain ⟨identifiersFirst, identifiersRest⟩ :=
            List.forall_mem_cons.mp identifiers
          simp only [List.map_cons, laterTexts, List.flatMap_cons,
            List.append_assoc] at same
          obtain ⟨first_eq, rest_eq⟩ := readableFirst other identifiersFirst _ _
            (closes_laterTexts separates _) (closes_laterTexts separates _)
            (List.append_cancel_left same)
          obtain ⟨others_eq, later_eq⟩ :=
            induction readableRest identifiersRest rest_eq
          exact ⟨by rw [List.map_cons, List.map_cons, first_eq, others_eq],
            later_eq⟩

theorem intercalate_cancel {first second : List Expr}
    (begins : ∀ expression ∈ first ++ second, ∃ next after,
      (text expression).toList = next :: after ∧ next ≠ ')')
    (readable : ∀ expression ∈ first, Readable text expression)
    (identifiers : ∀ expression ∈ second, expression.HasIdentifiers)
    (same : (separator.intercalate (first.map text)).toList ++ ')' :: rest =
      (separator.intercalate (second.map text)).toList ++ ')' :: later) :
    first.map eraseSpans = second.map eraseSpans ∧ rest = later := by
  cases first with
  | nil =>
      cases second with
      | nil => exact ⟨rfl, (List.cons.inj same).2⟩
      | cons other others =>
          obtain ⟨next, after, text_eq, next_ne⟩ := begins other (by simp)
          rw [List.map_cons, toList_intercalate_eq, text_eq] at same
          exact absurd (List.cons.inj same).1.symm next_ne
  | cons expression expressions =>
      cases second with
      | nil =>
          obtain ⟨next, after, text_eq, next_ne⟩ := begins expression (by simp)
          rw [List.map_cons, toList_intercalate_eq, text_eq] at same
          exact absurd (List.cons.inj same).1 next_ne
      | cons other others =>
          obtain ⟨readableFirst, readableRest⟩ :=
            List.forall_mem_cons.mp readable
          obtain ⟨identifiersFirst, identifiersRest⟩ :=
            List.forall_mem_cons.mp identifiers
          rw [List.map_cons, List.map_cons, toList_intercalate_eq,
            toList_intercalate_eq, List.append_assoc, List.append_assoc] at same
          obtain ⟨first_eq, rest_eq⟩ := readableFirst other identifiersFirst _ _
            (closes_laterTexts separates _) (closes_laterTexts separates _) same
          obtain ⟨others_eq, later_eq⟩ := laterTexts_cancel separates
            readableRest identifiersRest rest_eq
          exact ⟨by rw [List.map_cons, List.map_cons, first_eq, others_eq],
            later_eq⟩

end Lists

/-- A way to write trees whose operations can be told apart if their operands
can. -/
structure Writing (text : Expr → String) (layout : Layout)
    (separator : String) : Prop where
  text_eq : ∀ expression, text expression =
    expression.form.text layout separator text
  separates : Separates separator
  cancels : ∀ {mark mark' : Mark} {first first' : Expr}
      {others others' : List Expr} {rest later : List Char},
    (∀ expression ∈ first :: others ++ first' :: others', ∃ next after,
      (text expression).toList = next :: after ∧ next ≠ ')') →
    (∀ expression ∈ first :: others, Readable text expression) →
    (∀ expression ∈ first' :: others', expression.HasIdentifiers) →
    (layout mark (text first) (others.map text)).toList ++ ')' :: rest =
      (layout mark' (text first') (others'.map text)).toList ++ ')' :: later →
    mark = mark' ∧ first.eraseSpans = first'.eraseSpans ∧
      others.map eraseSpans = others'.map eraseSpans ∧ rest = later

namespace Writing

variable {text : Expr → String} {layout : Layout} {separator : String}
  (writing : Writing text layout separator)
include writing

variable {expression : Expr}

theorem text_of_word {word : String} (form_eq : expression.form = .word word) :
    (text expression).toList = word.toList := by
  rw [writing.text_eq, form_eq, Form.text]

theorem text_of_call {callee : String} {arguments : List Expr}
    (form_eq : expression.form = .call callee arguments) (rest : List Char) :
    (text expression).toList ++ rest =
      callee.toList ++ '(' ::
        ((separator.intercalate (arguments.map text)).toList ++
          ')' :: rest) := by
  rw [writing.text_eq, form_eq, Form.text]
  simp

theorem text_of_operation {mark : Mark} {first : Expr} {others : List Expr}
    (form_eq : expression.form = .operation mark first others)
    (rest : List Char) :
    (text expression).toList ++ rest =
      '(' :: ((layout mark (text first) (others.map text)).toList ++
        ')' :: rest) := by
  rw [writing.text_eq, form_eq, Form.text]
  simp

/-- No tree begins with what closes one. -/
theorem begins (identifiers : expression.HasIdentifiers) :
    ∃ next after, (text expression).toList = next :: after ∧ next ≠ ')' := by
  rw [← List.append_nil (text expression).toList]
  cases form_eq : expression.form with
  | word word =>
      rw [writing.text_of_word form_eq]
      obtain ⟨next, after, word_eq, _, next_ne⟩ :=
        (isWord_of_form identifiers form_eq).exists_begins []
      exact ⟨next, after, word_eq, next_ne⟩
  | call callee arguments =>
      rw [writing.text_of_call form_eq]
      obtain ⟨next, after, callee_eq, _, next_ne⟩ :=
        (isWord_callee_of_form identifiers form_eq).exists_begins _
      exact ⟨next, after, callee_eq, next_ne⟩
  | operation mark first others =>
      rw [writing.text_of_operation form_eq]
      exact ⟨_, _, rfl, by decide⟩

/-- Every tree can be told from others by its text, whatever follows. -/
theorem readable (expression : Expr) (identifiers : expression.HasIdentifiers) :
    Readable text expression := by
  intro other identifiers' rest later closes closes' same
  have readableParts : ∀ part ∈ expression.form.parts, Readable text part :=
    fun part isPart =>
      have _ := height_lt_of_mem_parts isPart
      readable part (identifiers.part isPart)
  have begins : ∀ part ∈ expression.form.parts ++ other.form.parts,
      ∃ next after, (text part).toList = next :: after ∧ next ≠ ')' := by
    intro part among
    rcases List.mem_append.mp among with isPart | isPart
    · exact writing.begins (identifiers.part isPart)
    · exact writing.begins (identifiers'.part isPart)
  have identifiersParts : ∀ part ∈ other.form.parts, part.HasIdentifiers :=
    fun part => identifiers'.part
  cases form_eq : expression.form with
  | word word =>
      have isWord := isWord_of_form identifiers form_eq
      rw [writing.text_of_word form_eq] at same
      cases form_eq' : other.form with
      | word word' =>
          rw [writing.text_of_word form_eq'] at same
          obtain ⟨word_eq, rest_eq⟩ := run_cancel isWord.characters
            (isWord_of_form identifiers' form_eq').characters closes.notWord
            closes'.notWord same
          rw [← String.toList_inj.mp word_eq] at form_eq'
          exact ⟨eraseSpans_eq_of_word identifiers identifiers' form_eq
            form_eq', rest_eq⟩
      | call callee arguments =>
          rw [writing.text_of_call form_eq'] at same
          obtain ⟨_, rfl⟩ := run_cancel isWord.characters
            (isWord_callee_of_form identifiers' form_eq').characters
            closes.notWord (by simp [isWordCharacter]) same
          exact absurd closes (not_closes_parenthesis _)
      | operation mark first others =>
          rw [writing.text_of_operation form_eq'] at same
          exact absurd same (isWord.ne_parenthesis _ _)
  | call callee arguments =>
      have isWord := isWord_callee_of_form identifiers form_eq
      rw [writing.text_of_call form_eq] at same
      cases form_eq' : other.form with
      | word word' =>
          rw [writing.text_of_word form_eq'] at same
          obtain ⟨_, rfl⟩ := run_cancel isWord.characters
            (isWord_of_form identifiers' form_eq').characters
            (by simp [isWordCharacter]) closes'.notWord same
          exact absurd closes' (not_closes_parenthesis _)
      | call callee' arguments' =>
          rw [form_eq, form_eq'] at begins
          rw [form_eq] at readableParts
          rw [form_eq'] at identifiersParts
          rw [writing.text_of_call form_eq'] at same
          obtain ⟨callee_eq, tail_eq⟩ := run_cancel isWord.characters
            (isWord_callee_of_form identifiers' form_eq').characters
            (by simp [isWordCharacter]) (by simp [isWordCharacter]) same
          obtain ⟨arguments_eq, rest_eq⟩ := intercalate_cancel
            writing.separates begins readableParts identifiersParts
            (List.cons.inj tail_eq).2
          rw [← String.toList_inj.mp callee_eq] at form_eq'
          exact ⟨eraseSpans_eq_of_call form_eq form_eq' arguments_eq, rest_eq⟩
      | operation mark first others =>
          rw [writing.text_of_operation form_eq'] at same
          exact absurd same (isWord.ne_parenthesis _ _)
  | operation mark first others =>
      rw [writing.text_of_operation form_eq] at same
      cases form_eq' : other.form with
      | word word' =>
          rw [writing.text_of_word form_eq'] at same
          exact absurd same.symm
            ((isWord_of_form identifiers' form_eq').ne_parenthesis _ _)
      | call callee arguments =>
          rw [writing.text_of_call form_eq'] at same
          exact absurd same.symm
            ((isWord_callee_of_form identifiers' form_eq').ne_parenthesis _ _)
      | operation mark' first' others' =>
          rw [form_eq, form_eq'] at begins
          rw [form_eq] at readableParts
          rw [form_eq'] at identifiersParts
          rw [writing.text_of_operation form_eq'] at same
          obtain ⟨rfl, first_eq, others_eq, rest_eq⟩ := writing.cancels begins
            readableParts identifiersParts (List.cons.inj same).2
          exact ⟨eraseSpans_eq_of_operation form_eq form_eq' first_eq others_eq,
            rest_eq⟩
termination_by expression.height

/-- Trees with the same text are alike. -/
theorem alike_of_text_eq {other : Expr}
    (identifiers : expression.HasIdentifiers)
    (identifiers' : other.HasIdentifiers)
    (same : text expression = text other) :
    expression.alike other = true := by
  rw [alike_iff]
  refine (writing.readable expression identifiers other identifiers' [] [] nofun
    nofun ?_).1
  rw [same]

end Writing

theorem writing_infixText : Writing infixText infixLayout "," where
  text_eq := infixText_eq_form
  separates := separates_comma
  cancels := by
    intro mark mark' first first' others others' rest later begins readable
      identifiers same
    obtain ⟨readableFirst, readableOthers⟩ := List.forall_mem_cons.mp readable
    obtain ⟨identifiersFirst, identifiersOthers⟩ :=
      List.forall_mem_cons.mp identifiers
    simp only [infixLayout, String.toList_append, List.append_assoc] at same
    obtain ⟨first_eq, same⟩ := readableFirst first' identifiersFirst _ _
      (closes_cons (.inl rfl)) (closes_cons (.inl rfl)) same
    obtain ⟨mark_eq, same⟩ := Symbols.infixSymbols.symbol_cancel
      (List.cons.inj same).2
    have beginsOthers : ∀ expression ∈ others ++ others', ∃ next after,
        expression.infixText.toList = next :: after ∧ next ≠ ')' := by
      intro expression among
      apply begins
      rcases List.mem_append.mp among with inFirst | inSecond
      · exact List.mem_append_left _ (List.mem_cons_of_mem _ inFirst)
      · exact List.mem_append_right _ (List.mem_cons_of_mem _ inSecond)
    obtain ⟨others_eq, rest_eq⟩ := intercalate_cancel separates_colon
      beginsOthers readableOthers identifiersOthers same
    exact ⟨mark_eq, first_eq, others_eq, rest_eq⟩

theorem writing_lispText : Writing lispText lispLayout " " where
  text_eq := lispText_eq_form
  separates := separates_blank
  cancels := by
    intro mark mark' first first' others others' rest later begins readable
      identifiers same
    simp only [lispLayout, String.toList_append, List.append_assoc] at same
    obtain ⟨mark_eq, same⟩ := Symbols.lispSymbols.symbol_cancel same
    obtain ⟨operands_eq, rest_eq⟩ := intercalate_cancel separates_blank begins
      readable identifiers same
    obtain ⟨first_eq, others_eq⟩ := List.cons.inj operands_eq
    exact ⟨mark_eq, first_eq, others_eq, rest_eq⟩

mutual

theorem lispText_eraseSpans : (expression : Expr) →
    expression.eraseSpans.lispText = expression.lispText
  | .literal .. | .var _ => rfl
  | .binary _ left right => by
      simp only [eraseSpans, lispText, lispText_eraseSpans left,
        lispText_eraseSpans right]
  | .assign target value => by
      simp only [eraseSpans, lispText, lispText_eraseSpans target,
        lispText_eraseSpans value]
  | .conditional test onTrue onFalse => by
      simp only [eraseSpans, lispText, lispText_eraseSpans test,
        lispText_eraseSpans onTrue, lispText_eraseSpans onFalse]
  | .call _ arguments _ => by
      simp only [eraseSpans, lispText, lispTexts_eraseAllSpans arguments]

theorem lispTexts_eraseAllSpans : (expressions : List Expr) →
    lispTexts (eraseAllSpans expressions) = lispTexts expressions
  | [] => rfl
  | first :: rest => by
      simp only [eraseAllSpans, lispTexts, lispText_eraseSpans first,
        lispTexts_eraseAllSpans rest]

end

/-- Infix texts tell trees apart, except for their places. -/
theorem infixText_eq_iff {first second : Expr}
    (identifiers : first.HasIdentifiers)
    (identifiers' : second.HasIdentifiers) :
    first.infixText = second.infixText ↔ first.alike second = true := by
  refine ⟨writing_infixText.alike_of_text_eq identifiers identifiers',
    fun alike => ?_⟩
  rw [← infixText_eraseSpans first, (alike_iff first second).mp alike,
    infixText_eraseSpans]

/-- Lisp texts tell trees apart, except for their places. -/
theorem lispText_eq_iff {first second : Expr}
    (identifiers : first.HasIdentifiers)
    (identifiers' : second.HasIdentifiers) :
    first.lispText = second.lispText ↔ first.alike second = true := by
  refine ⟨writing_lispText.alike_of_text_eq identifiers identifiers',
    fun alike => ?_⟩
  rw [← lispText_eraseSpans first, (alike_iff first second).mp alike,
    lispText_eraseSpans]

end Expr

namespace Evaluator

variable (evaluator : Evaluator)

/-- An assignment stores the value under the infix text of its target. -/
theorem environment_evaluate_assign (target value : Expr)
    (before : Environment) :
    let evaluated := evaluator.enter.evaluate value before
    (evaluator.evaluate (.assign target value) before).environment =
      match evaluated.outcome with
      | .ok stored => evaluated.environment.assign target.infixText stored
      | .error _ => evaluated.environment := by
  intro evaluated
  simp only [evaluated, evaluate_eq_meaning]
  obtain ⟨functions, limits, depth, nesting⟩ := evaluator
  have room_eq : limits.maximumNesting - (nesting + 1) =
      limits.maximumNesting - nesting - 1 := rfl
  simp only [enter, room_eq]
  cases limits.maximumNesting - nesting with
  | zero => rfl
  | succ room =>
      simp only [meaning, bind, EStateM.bind, Nat.add_sub_cancel]
      cases meaning functions limits room depth value before <;> rfl

/-- An assignment does nothing to the slots of other targets. -/
theorem find?_evaluate_assign {target other : Expr}
    (identifiers : target.HasIdentifiers)
    (identifiers' : other.HasIdentifiers)
    (different : target.alike other = false) (value : Expr)
    (before : Environment) :
    (evaluator.evaluate (.assign target value) before).environment.find?
        other.infixText =
      (evaluator.enter.evaluate value before).environment.find?
        other.infixText := by
  have text_ne : target.infixText ≠ other.infixText := by
    rw [ne_eq, Expr.infixText_eq_iff identifiers identifiers', different]
    exact Bool.false_ne_true
  rw [environment_evaluate_assign]
  cases (evaluator.enter.evaluate value before).outcome with
  | error error => rfl
  | ok stored => rw [Environment.find?_assign, if_neg text_ne]

end Evaluator

open Evaluator in
/-- Each of the two texts of a tree tells which tree it is, except for its
places.  So an assignment to a tree that is no variable, which stores under the
infix text of the tree, does nothing to a variable, nor to the slot of another
tree unless the two are alike. -/
theorem Expr.texts_identify {first second : Expr}
    (identifiers : first.HasIdentifiers)
    (identifiers' : second.HasIdentifiers) :
    (first.infixText = second.infixText ↔ first.lispText = second.lispText) ∧
      (first.lispText = second.lispText ↔ first.alike second = true) ∧
      ∀ (evaluator : Evaluator) (value : Expr) (before : Environment),
        let evaluated := evaluator.enter.evaluate value before
        let assigned := evaluator.evaluate (.assign first value) before
        (∀ stored, evaluated.outcome = .ok stored →
          assigned.environment.find? first.infixText = some stored) ∧
        ((∀ name, first ≠ .var name) → ∀ name, IsIdentifier name →
          assigned.environment.find? name =
            evaluated.environment.find? name) ∧
        (first.alike second = false →
          assigned.environment.find? second.infixText =
            evaluated.environment.find? second.infixText) := by
  have infix_iff := infixText_eq_iff identifiers identifiers'
  have lisp_iff := lispText_eq_iff identifiers identifiers'
  refine ⟨infix_iff.trans lisp_iff.symm, lisp_iff,
    fun evaluator value before => ⟨?_, ?_, ?_⟩⟩
  · intro stored isStored
    rw [environment_evaluate_assign, isStored]
    simp
  · intro noVariable name isName
    have identifiersName : (var ⟨name, .unknown⟩).HasIdentifiers := by
      simpa [HasIdentifiers] using isName
    refine find?_evaluate_assign evaluator identifiers identifiersName ?_ value
      before
    cases first with
    | var name => exact absurd rfl (noVariable name)
    | literal | binary | assign | conditional | call => rfl
  · intro different
    exact find?_evaluate_assign evaluator identifiers identifiers' different
      value before

open Evaluator in
/-- For instance, a difference of the variable `setq` and a number with a sign,
and a call of the function `if` with this difference as an argument. -/
theorem Expr.texts_identify_difference :
    let first := Expr.binary .minus (.var ⟨"setq", .unknown⟩)
      (.literal (-5) .unknown)
    let second := Expr.call ⟨"if", .unknown⟩ [.var ⟨"deffn", .unknown⟩, first]
      .unknown
    let assigned := (fresh .empty .standard).evaluate
      (.assign first (.literal 3 .unknown)) .empty
    first.HasIdentifiers ∧ second.HasIdentifiers ∧
      first.infixText ≠ second.infixText ∧
      first.lispText ≠ second.lispText ∧
      assigned.environment.find? first.infixText = some 3 ∧
      assigned.environment.find? "setq" = none ∧
      assigned.environment.find? second.infixText = none := by
  intro first second assigned
  have identifiers : first.HasIdentifiers := by decide
  have identifiers' : second.HasIdentifiers := by decide
  have different : first.alike second = false := rfl
  obtain ⟨infix_iff, lisp_iff, slots⟩ :=
    texts_identify identifiers identifiers'
  have lisp_ne : first.lispText ≠ second.lispText := by
    rw [ne_eq, lisp_iff, different]
    exact Bool.false_ne_true
  have value_eq : (fresh .empty .standard).enter.evaluate
      (.literal 3 .unknown) .empty =
        ⟨.ok 3, .empty, (fresh .empty .standard).enter⟩ := by
    rw [evaluate_eq_meaning]
    rfl
  obtain ⟨stores, spares, sparesOther⟩ :=
    slots (fresh .empty .standard) (.literal 3 .unknown) .empty
  rw [value_eq] at stores spares sparesOther
  exact ⟨identifiers, identifiers', mt infix_iff.mp lisp_ne, lisp_ne,
    stores 3 rfl, spares nofun "setq" (by decide), sparesOther different⟩

end Calculator
