import Calculator.Proofs.Grammar.Reading

/-!
# What the steps of rules do

A rule is put together from steps that may fail.  Each lemma says when a step
succeeds and what it yields then.
-/

namespace Calculator
namespace Grammar

theorem bind_eq_ok {Result Result' Error : Type} {first : Except Error Result}
    {next : Result → Except Error Result'} {result : Result'} :
    first >>= next = .ok result ↔
      ∃ value, first = .ok value ∧ next value = .ok result := by
  cases first with
  | error error => simp [bind, Except.bind]
  | ok value => simp [bind, Except.bind]

@[simp] theorem ok_bind {Result Result' Error : Type} (value : Result)
    (next : Result → Except Error Result') :
    (Except.ok value >>= next) = next value :=
  rfl

theorem take?_eq_none {kind : TokenKind} {tokens : List Token} :
    take? kind tokens = none ↔ nextKind? tokens ≠ some kind := by
  cases tokens with
  | nil => simp [take?]
  | cons token rest =>
      by_cases same : token.kind = kind <;> simp [take?, same]

theorem eq_cons_of_take? {kind : TokenKind} {tokens rest : List Token}
    {token : Token} {rest_lt : rest.length < tokens.length}
    (found : take? kind tokens = some ⟨token, rest, rest_lt⟩) :
    tokens = token :: rest ∧ token.kind = kind := by
  cases tokens with
  | nil => simp [take?] at found
  | cons first others =>
      by_cases same : first.kind = kind
      · simp only [take?, same, if_true, Option.some.injEq,
          Taken.mk.injEq] at found
        obtain ⟨rfl, rfl⟩ := found
        exact ⟨rfl, same⟩
      · simp [take?, same] at found

theorem take?_cons {kind : TokenKind} {token : Token} (rest : List Token)
    (same : token.kind = kind) :
    take? kind (token :: rest) = some ⟨token, rest, Nat.lt_succ_self _⟩ := by
  simp only [take?, same, if_true]

theorem eq_cons_of_expect {kind : TokenKind} {wanted : String}
    {tokens rest : List Token} {token : Token}
    {rest_lt : rest.length < tokens.length}
    (found : expect kind wanted tokens = .ok ⟨token, rest, rest_lt⟩) :
    tokens = token :: rest ∧ token.kind = kind := by
  cases tokens with
  | nil => simp [expect] at found
  | cons first others =>
      by_cases same : first.kind = kind
      · simp only [expect, same, if_true, Except.ok.injEq,
          Taken.mk.injEq] at found
        obtain ⟨rfl, rfl⟩ := found
        exact ⟨rfl, same⟩
      · simp [expect, same] at found

theorem expect_cons {kind : TokenKind} (wanted : String) {token : Token}
    (rest : List Token) (same : token.kind = kind) :
    expect kind wanted (token :: rest) =
      .ok ⟨token, rest, Nat.lt_succ_self _⟩ := by
  simp only [expect, same, if_true]

theorem nameOf_eq_ok {token : Token} {name : Name} :
    nameOf token = .ok name ↔
      token.lexeme ≠ definitionKeyword ∧ name = token.asName := by
  by_cases reserved : token.lexeme = definitionKeyword
  · simp [nameOf, reserved]
  · simp [nameOf, reserved, Token.asName, eq_comm]

theorem nameOf_of_isName {token : Token} (isName : IsName token) :
    nameOf token = .ok token.asName :=
  nameOf_eq_ok.mpr ⟨isName.lexeme, rfl⟩

theorem one_le_maximumHeight : 1 ≤ maximumHeight := by
  decide

theorem grow_eq_ok {height taller : Nat} {place : Span} :
    grow height place = .ok taller ↔
      height + 1 ≤ maximumHeight ∧ taller = height + 1 := by
  by_cases tooTall : maximumHeight ≤ height
  · simp only [grow, tooTall, if_true, reduceCtorEq, false_iff]
    omega
  · simp only [grow, tooTall, if_false, Except.ok.injEq]
    omega

/-- Growing fails only because of the height. -/
theorem grow_of_le {height : Nat} (place : Span)
    (inLimit : height + 1 ≤ maximumHeight) :
    grow height place = .ok (height + 1) :=
  grow_eq_ok.mpr ⟨inLimit, rfl⟩

theorem grow_of_not_le {height : Nat} (place : Span)
    (tooTall : ¬height + 1 ≤ maximumHeight) :
    grow height place = .error (.tooDeep place maximumHeight) := by
  have limit : maximumHeight ≤ height := by omega
  simp only [grow, limit, if_true]

end Grammar
end Calculator
