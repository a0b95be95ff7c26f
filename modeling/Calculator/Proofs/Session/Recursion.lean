import Mathlib.Data.Nat.Factorial.Basic
import Mathlib.Data.Nat.Fib.Basic
import Calculator.Proofs.Session.Prelude

/-!
# Factorials, powers and Fibonacci numbers

The functions `fact`, `pow` and `fib` of the prelude count an argument down by
calling themselves.  They are exact, up to wrapping around, as long as there may
be so many active bodies as the count asks for, and exceed the depth of calls as
soon as there may not.  One level of the recursion takes three of the nesting.
-/

namespace Calculator

/-! ### Values that count down -/

theorem ofNat_add_sub (number step : Nat) :
    Int64.ofNat (number + step) - Int64.ofNat step = Int64.ofNat number := by
  rw [Int64.ofNat_add, Int64.add_sub_cancel]

theorem ofNat_le_ofNat {first second : Nat} (inRange : first < 2 ^ 63)
    (inRangeSecond : second < 2 ^ 63) :
    Int64.ofNat first ≤ Int64.ofNat second ↔ first ≤ second := by
  rw [Int64.le_iff_toInt_le, Int64.toInt_ofNat_of_lt inRange,
    Int64.toInt_ofNat_of_lt inRangeSecond, Int.ofNat_le]

theorem ofNat_lt_ofNat {first second : Nat} (inRange : first < 2 ^ 63)
    (inRangeSecond : second < 2 ^ 63) :
    Int64.ofNat first < Int64.ofNat second ↔ first < second := by
  rw [Int64.lt_iff_toInt_lt, Int64.toInt_ofNat_of_lt inRange,
    Int64.toInt_ofNat_of_lt inRangeSecond, Int.ofNat_lt]

/-- A value that is not negative is its integer. -/
theorem eq_ofNat_of_nonneg {value : Int64} (nonneg : 0 ≤ value.toInt) :
    value = Int64.ofNat value.toInt.toNat := by
  rw [← Int64.ofInt_eq_ofNat, Int.toNat_of_nonneg nonneg, Int64.ofInt_toInt]

/-- A negative value is what it is without a sign. -/
theorem eq_ofNat_of_neg {value : Int64} (negative : ¬0 ≤ value.toInt) :
    value = Int64.ofNat (value.toInt + 2 ^ 64).toNat := by
  have le_toInt := value.le_toInt
  have wrapped : Int64.ofInt (2 ^ 64) = 0 := rfl
  rw [← Int64.ofInt_eq_ofNat, Int.toNat_of_nonneg (by omega), Int64.ofInt_add,
    Int64.ofInt_toInt, wrapped, Int64.add_zero]

theorem ofNat_succ_ne_zero {number : Nat} (inRange : number + 1 < 2 ^ 64) :
    Int64.ofNat (number + 1) ≠ 0 := by
  intro zero
  have unsigned := congrArg (·.toUInt64.toNat) zero
  simp only [Int64.toUInt64_ofNat', UInt64.toNat_ofNat'] at unsigned
  rw [Nat.mod_eq_of_lt inRange] at unsigned
  cases unsigned

namespace Prelude

open Calculator.Expr Evaluator

variable {functions : FunctionTable} {limits : Limits} {room depth : Nat}

/-! ### One body of each function -/

section Bodies

variable (free : depth < limits.maximumCallDepth)
include free

theorem reply_fact (found : functions.find? "fact" = some fact) (n : Int64) :
    reply functions limits (room + 5) depth fact [n] =
      if n ≤ 1 then .ok 1
      else do
        return n *
          (← reply functions limits (room + 2) (depth + 1) fact [n - 1]) := by
  let own := Environment.empty.bindAll ["n"] [n]
  have bound : own.find? "n" = some n := rfl
  have test : Leads functions limits (room + 4) (depth + 1) own
      (.binary .lessEqual (named "n") (number 1))
      (.ok (Operator.truth (n ≤ 1))) own :=
    .operation (.var bound) (.literal 1 _) rfl
  by_cases small : n ≤ 1
  · rw [if_pos small]
    exact reply_of_lt free (.onTrue test small (.literal 1 _))
  · rw [if_neg small]
    have argument : Leads functions limits (room + 2) (depth + 1) own
        (.binary .minus (named "n") (number 1)) (.ok (n - 1)) own :=
      .operation (.var bound) (.literal 1 _) rfl
    exact reply_of_lt free (.onFalse test small
      (.binaryRight (.var bound) (fun _ => rfl)
        (.call found rfl (Nat.le_refl 1) (.cons argument .nil))))

theorem reply_pow (found : functions.find? "pow" = some pow) (a b : Int64) :
    reply functions limits (room + 5) depth pow [a, b] =
      if b = 0 then .ok 1
      else do
        return a *
          (← reply functions limits (room + 2) (depth + 1) pow [a, b - 1]) := by
  let own := Environment.empty.bindAll ["a", "b"] [a, b]
  obtain ⟨boundA, boundB⟩ := find?_pair a b
  have test : Leads functions limits (room + 4) (depth + 1) own
      (.binary .equal (named "b") (number 0))
      (.ok (Operator.truth (b = 0))) own :=
    .operation (.var boundB) (.literal 0 _) rfl
  by_cases zero : b = 0
  · rw [if_pos zero]
    exact reply_of_lt free (.onTrue test zero (.literal 1 _))
  · rw [if_neg zero]
    have argument : Leads functions limits (room + 2) (depth + 1) own
        (.binary .minus (named "b") (number 1)) (.ok (b - 1)) own :=
      .operation (.var boundB) (.literal 1 _) rfl
    exact reply_of_lt free (.onFalse test zero
      (.binaryRight (.var boundA) (fun _ => rfl)
        (.call found rfl (Nat.le_refl 2)
          (.cons (.var boundA) (.cons argument .nil)))))

theorem reply_fib (found : functions.find? "fib" = some fib) (n : Int64) :
    reply functions limits (room + 5) depth fib [n] =
      if n < 2 then .ok n
      else do
        return (← reply functions limits (room + 2) (depth + 1) fib [n - 1]) +
          (← reply functions limits (room + 2) (depth + 1) fib [n - 2]) := by
  let own := Environment.empty.bindAll ["n"] [n]
  have bound : own.find? "n" = some n := rfl
  have test : Leads functions limits (room + 4) (depth + 1) own
      (.binary .less (named "n") (number 2))
      (.ok (Operator.truth (n < 2))) own :=
    .operation (.var bound) (.literal 2 _) rfl
  by_cases small : n < 2
  · rw [if_pos small]
    exact reply_of_lt free (.onTrue test small (.var bound))
  · rw [if_neg small]
    have argument (step : Int64) :
        Leads functions limits (room + 2) (depth + 1) own
          (.binary .minus (named "n") (number step)) (.ok (n - step)) own :=
      .operation (.var bound) (.literal step _) rfl
    exact reply_of_lt free (.onFalse test small
      (.binary (fun _ _ => rfl)
        (.call found rfl (Nat.le_refl 1) (.cons (argument 1) .nil))
        (.call found rfl (Nat.le_refl 1) (.cons (argument 2) .nil))))

end Bodies

/-! ### All bodies

The inductions are on the bodies that may still become active.  Each of them
needs three levels of nesting, and the last one needs two more for the argument
of the call that it cannot make. -/

section Runs

variable {remaining : Nat}
  (bodies_eq : depth + remaining = limits.maximumCallDepth)
  (room_le : 3 * remaining + 2 ≤ room)
include bodies_eq room_le

/-- Every count takes one body. -/
theorem reply_fact_eq (found : functions.find? "fact" = some fact)
    {number : Nat} (positive : 1 ≤ number) (inRange : number < 2 ^ 63) :
    reply functions limits room depth fact [Int64.ofNat number] =
      if number ≤ remaining then .ok (Int64.ofNat number.factorial)
      else .error (.callDepthExceeded "fact" limits.maximumCallDepth) := by
  induction remaining generalizing room depth number with
  | zero =>
      rw [if_neg (by omega)]
      exact reply_of_le (Nat.le_of_eq bodies_eq.symm)
  | succ remaining induction =>
      obtain ⟨room, rfl⟩ := Nat.exists_eq_add_of_le' (by omega : 5 ≤ room)
      obtain ⟨previous, rfl⟩ := Nat.exists_eq_add_of_le' positive
      have small_iff : Int64.ofNat (previous + 1) ≤ 1 ↔ previous + 1 ≤ 1 :=
        ofNat_le_ofNat inRange (by decide)
      have less : Int64.ofNat (previous + 1) - 1 = Int64.ofNat previous :=
        ofNat_add_sub previous 1
      rw [reply_fact (by omega) found]
      by_cases last : previous = 0
      · subst last
        rfl
      · rw [if_neg (mt small_iff.mp (by omega)), less, induction (by omega)
          (by omega) (by omega) (by omega)]
        by_cases enough : previous ≤ remaining
        · rw [if_pos enough, if_pos (by omega), Nat.factorial_succ,
            Int64.ofNat_mul]
          rfl
        · rw [if_neg enough, if_neg (by omega)]
          rfl

/-- The count of zero takes a body as well. -/
theorem reply_pow_eq (found : functions.find? "pow" = some pow) (base : Int64)
    {number : Nat} (inRange : number < 2 ^ 64) :
    reply functions limits room depth pow [base, Int64.ofNat number] =
      if number < remaining then .ok (Int64.ofInt (base.toInt ^ number))
      else .error (.callDepthExceeded "pow" limits.maximumCallDepth) := by
  induction remaining generalizing room depth number with
  | zero => exact reply_of_le (Nat.le_of_eq bodies_eq.symm)
  | succ remaining induction =>
      obtain ⟨room, rfl⟩ := Nat.exists_eq_add_of_le' (by omega : 5 ≤ room)
      rw [reply_pow (by omega) found]
      cases number with
      | zero =>
          have zero : Int64.ofNat 0 = 0 := rfl
          rw [if_pos zero, if_pos (Nat.succ_pos remaining), pow_zero]
          rfl
      | succ previous =>
          have less : Int64.ofNat (previous + 1) - 1 = Int64.ofNat previous :=
            ofNat_add_sub previous 1
          rw [if_neg (ofNat_succ_ne_zero inRange), less,
            induction (by omega) (by omega) (by omega)]
          by_cases enough : previous < remaining
          · rw [if_pos enough, if_pos (by omega), Int.pow_succ',
              Int64.ofInt_mul, Int64.ofInt_toInt]
            rfl
          · rw [if_neg enough, if_neg (by omega)]
            rfl

/-- The counts of zero and one take one body each. -/
theorem reply_fib_eq (found : functions.find? "fib" = some fib)
    {number : Nat} (inRange : number < 2 ^ 63) :
    reply functions limits room depth fib [Int64.ofNat number] =
      if max number 1 ≤ remaining then .ok (Int64.ofNat number.fib)
      else .error (.callDepthExceeded "fib" limits.maximumCallDepth) := by
  induction remaining generalizing room depth number with
  | zero =>
      rw [if_neg (by omega)]
      exact reply_of_le (Nat.le_of_eq bodies_eq.symm)
  | succ remaining induction =>
      obtain ⟨room, rfl⟩ := Nat.exists_eq_add_of_le' (by omega : 5 ≤ room)
      have small_iff : Int64.ofNat number < 2 ↔ number < 2 :=
        ofNat_lt_ofNat inRange (by decide)
      rw [reply_fib (by omega) found]
      match number with
      | 0 | 1 => rfl
      | previous + 2 =>
          have lessOne : Int64.ofNat (previous + 2) - 1 =
              Int64.ofNat (previous + 1) :=
            ofNat_add_sub (previous + 1) 1
          have lessTwo : Int64.ofNat (previous + 2) - 2 =
              Int64.ofNat previous :=
            ofNat_add_sub previous 2
          have first := @induction (room + 2) (depth + 1) (by omega) (by omega)
            (previous + 1) (by omega)
          have second := @induction (room + 2) (depth + 1) (by omega) (by omega)
            previous (by omega)
          rw [if_neg (mt small_iff.mp (by omega)), lessOne, lessTwo, first]
          -- The second call has less to count, so it fits if the first does.
          by_cases enough : max (previous + 1) 1 ≤ remaining
          · rw [if_pos enough, second, if_pos (by omega), if_pos (by omega),
              Nat.fib_add_two, Nat.add_comm previous.fib, Int64.ofNat_add]
            rfl
          · rw [if_neg enough, if_neg (by omega)]
            rfl

/-- A negative exponent counts down for too long. -/
theorem reply_pow_value (found : functions.find? "pow" = some pow)
    (remaining_lt : remaining < 2 ^ 62) (base exponent : Int64) :
    reply functions limits room depth pow [base, exponent] =
      if 0 ≤ exponent.toInt ∧ exponent.toInt < remaining then
        .ok (Int64.ofInt (base.toInt ^ exponent.toInt.toNat))
      else .error (.callDepthExceeded "pow" limits.maximumCallDepth) := by
  have le_toInt := exponent.le_toInt
  have toInt_lt := exponent.toInt_lt
  by_cases nonneg : 0 ≤ exponent.toInt
  · have counted := reply_pow_eq bodies_eq room_le found base
      (by omega : exponent.toInt.toNat < 2 ^ 64)
    rw [← eq_ofNat_of_nonneg nonneg] at counted
    rw [counted]
    exact if_congr (by omega) rfl rfl
  · have counted := reply_pow_eq bodies_eq room_le found base
      (by omega : (exponent.toInt + 2 ^ 64).toNat < 2 ^ 64)
    rw [← eq_ofNat_of_neg nonneg] at counted
    rw [counted, if_neg (by omega), if_neg (by omega)]

end Runs

end Prelude

namespace Session

variable {session : Session} {x y z : String} {n p q : Int64}

section Requests

variable (granted : session.granted = true)
  (bodies_pos : 1 ≤ session.limits.maximumCallDepth)
  (nesting_le :
    3 * session.limits.maximumCallDepth + 3 ≤ session.limits.maximumNesting)
include granted bodies_pos nesting_le

/-- How a function that counts down answers, from what it replies to values
below two and to the numbers that it counts down from. -/
theorem evaluate_counting {function : FunctionDefinition} {opening : String}
    {small : Int64} {result : Nat → Nat}
    (opening_eq : function.name.text ++ "(" = opening)
    (recursive : function ∈ Prelude.recursive)
    (holds : session.HoldsPrelude function.name.text)
    (unary : 1 ≤ function.arity) (proper : IsProperName x)
    (bound : session.environment.find? x = some n)
    (small_eq : ∀ room, n.toInt < 2 →
      Evaluator.reply session.functions.eraseSpans session.limits (room + 5) 0
        function [n] = .ok small)
    (count_eq : ∀ room number,
      3 * session.limits.maximumCallDepth + 2 ≤ room →
        1 ≤ number → number < 2 ^ 63 →
          Evaluator.reply session.functions.eraseSpans session.limits room 0
              function [Int64.ofNat number] =
            if number ≤ session.limits.maximumCallDepth then
              .ok (Int64.ofNat (result number))
            else .error (.callDepthExceeded function.name.text
              session.limits.maximumCallDepth)) :
    let answer := session.evaluate (opening ++ x ++ ")")
    (n.toInt < 2 → answer = session.yields small) ∧
    (2 ≤ n.toInt → n.toInt ≤ session.limits.maximumCallDepth →
      answer = session.yields (Int64.ofNat (result n.toInt.toNat))) ∧
    (session.limits.maximumCallDepth < n.toInt →
      answer = session.exceeds function.name.text) := by
  intro answer
  obtain ⟨room, nesting_eq⟩ := Nat.exists_eq_add_of_le'
    (by omega : 6 ≤ session.limits.maximumNesting)
  have concludes := concludes_recursive granted nesting_eq recursive holds
    (List.forall_mem_singleton.mpr proper) (.cons bound .nil) unary
  rw [String.intercalate_singleton, opening_eq] at concludes
  change session.Concludes _ answer at concludes
  by_cases isSmall : n.toInt < 2
  · rw [small_eq room isSmall] at concludes
    exact ⟨fun _ => concludes.eq_yields, by omega, by omega⟩
  · have toInt_lt := n.toInt_lt
    have counted := count_eq (room + 5) n.toInt.toNat (by omega) (by omega)
      (by omega)
    rw [← eq_ofNat_of_nonneg (by omega)] at counted
    rw [counted] at concludes
    refine ⟨fun small => absurd small isSmall, fun _ inDepth => ?_,
      fun deep => ?_⟩
    · rw [if_pos (by omega)] at concludes
      exact concludes.eq_yields
    · rw [if_neg (by omega)] at concludes
      exact concludes.eq_exceeds

theorem evaluate_fact (holds : session.HoldsPrelude "fact")
    (proper : IsProperName x) (bound : session.environment.find? x = some n) :
    let answer := session.evaluate ("fact(" ++ x ++ ")")
    (n.toInt < 2 → answer = session.yields 1) ∧
    (2 ≤ n.toInt → n.toInt ≤ session.limits.maximumCallDepth →
      answer = session.yields (Int64.ofNat n.toInt.toNat.factorial)) ∧
    (session.limits.maximumCallDepth < n.toInt →
      answer = session.exceeds "fact") := by
  have opening_eq : Prelude.fact.name.text ++ "(" = "fact(" := by decide
  have recursive : Prelude.fact ∈ Prelude.recursive := by
    simp [Prelude.recursive]
  have found := holds.find? recursive
  refine evaluate_counting granted bodies_pos nesting_le opening_eq recursive
    holds (Nat.le_refl 1) proper bound (fun room small => ?_)
    fun room number room_le positive inRange => ?_
  · have small_le : n ≤ 1 :=
      Int64.le_iff_toInt_le.mpr (Int.lt_add_one_iff.mp small)
    rw [Prelude.reply_fact bodies_pos found, if_pos small_le]
  · exact Prelude.reply_fact_eq (Nat.zero_add _) room_le found positive inRange

theorem evaluate_fib (holds : session.HoldsPrelude "fib")
    (proper : IsProperName x) (bound : session.environment.find? x = some n) :
    let answer := session.evaluate ("fib(" ++ x ++ ")")
    (n.toInt < 2 → answer = session.yields n) ∧
    (2 ≤ n.toInt → n.toInt ≤ session.limits.maximumCallDepth →
      answer = session.yields (Int64.ofNat n.toInt.toNat.fib)) ∧
    (session.limits.maximumCallDepth < n.toInt →
      answer = session.exceeds "fib") := by
  have opening_eq : Prelude.fib.name.text ++ "(" = "fib(" := by decide
  have recursive : Prelude.fib ∈ Prelude.recursive := by
    simp [Prelude.recursive]
  have found := holds.find? recursive
  refine evaluate_counting granted bodies_pos nesting_le opening_eq recursive
    holds (Nat.le_refl 1) proper bound (fun room small => ?_)
    fun room number room_le positive inRange => ?_
  · have small_lt : n < 2 := Int64.lt_iff_toInt_lt.mpr small
    rw [Prelude.reply_fib bodies_pos found, if_pos small_lt]
  · rw [Prelude.reply_fib_eq (Nat.zero_add _) room_le found inRange]
    exact if_congr (by omega) rfl rfl

omit bodies_pos in
theorem evaluate_pow (bodies_lt : session.limits.maximumCallDepth < 2 ^ 62)
    (holds : session.HoldsPrelude "pow")
    (proper : IsProperName y) (properExponent : IsProperName z)
    (bound : session.environment.find? y = some p)
    (boundExponent : session.environment.find? z = some q) :
    let answer := session.evaluate ("pow(" ++ y ++ "," ++ z ++ ")")
    (0 ≤ q.toInt → q.toInt < session.limits.maximumCallDepth →
      answer = session.yields (Int64.ofInt (p.toInt ^ q.toInt.toNat))) ∧
    (session.limits.maximumCallDepth ≤ q.toInt ∨ q.toInt < 0 →
      answer = session.exceeds "pow") := by
  intro answer
  obtain ⟨room, nesting_eq⟩ := Nat.exists_eq_add_of_le'
    (by omega : 2 ≤ session.limits.maximumNesting)
  have isRecursive : Prelude.pow ∈ Prelude.recursive := by
    simp [Prelude.recursive]
  have text_eq : "pow" ++ "(" ++ ",".intercalate [y, z] ++ ")" =
      "pow(" ++ y ++ "," ++ z ++ ")" := by
    simp [String.intercalate_cons_cons, String.append_assoc]
  have properAll : ∀ name ∈ [y, z], IsProperName name :=
    List.forall_mem_cons.mpr
      ⟨proper, List.forall_mem_singleton.mpr properExponent⟩
  have concludes : session.Concludes _ answer :=
    text_eq ▸ concludes_recursive granted nesting_eq isRecursive holds
      properAll (.cons bound (.cons boundExponent .nil)) (Nat.le_refl 2)
  rw [Prelude.reply_pow_value (Nat.zero_add _) (by omega)
    (holds.find? isRecursive) bodies_lt] at concludes
  refine ⟨fun nonneg inDepth => ?_, fun deep => ?_⟩
  · rw [if_pos ⟨nonneg, inDepth⟩] at concludes
    exact concludes.eq_yields
  · rw [if_neg (by omega)] at concludes
    exact concludes.eq_exceeds

end Requests

/-- With three levels of nesting for every active body that there may be, and
three more, the recursive functions are exact up to wrapping around as long as
their counts fit the depth of calls, and exceed it otherwise. -/
theorem evaluate_recursive (granted : session.granted = true)
    (bodies_pos : 1 ≤ session.limits.maximumCallDepth)
    (bodies_lt : session.limits.maximumCallDepth < 2 ^ 62)
    (nesting_le :
      3 * session.limits.maximumCallDepth + 3 ≤ session.limits.maximumNesting)
    (holdsFact : session.HoldsPrelude "fact")
    (holdsPow : session.HoldsPrelude "pow")
    (holdsFib : session.HoldsPrelude "fib")
    (properX : IsProperName x) (properY : IsProperName y)
    (properZ : IsProperName z)
    (boundX : session.environment.find? x = some n)
    (boundY : session.environment.find? y = some p)
    (boundZ : session.environment.find? z = some q) :
    let deepest := session.limits.maximumCallDepth
    let factorial := session.evaluate ("fact(" ++ x ++ ")")
    let fibonacci := session.evaluate ("fib(" ++ x ++ ")")
    let power := session.evaluate ("pow(" ++ y ++ "," ++ z ++ ")")
    ((n.toInt ≤ 1 → factorial = session.yields 1) ∧
      (2 ≤ n.toInt → n.toInt ≤ deepest →
        factorial = session.yields (Int64.ofNat n.toInt.toNat.factorial)) ∧
      (deepest < n.toInt → factorial = session.exceeds "fact")) ∧
    ((n.toInt < 2 → fibonacci = session.yields n) ∧
      (2 ≤ n.toInt → n.toInt ≤ deepest →
        fibonacci = session.yields (Int64.ofNat n.toInt.toNat.fib)) ∧
      (deepest < n.toInt → fibonacci = session.exceeds "fib")) ∧
    ((0 ≤ q.toInt → q.toInt < deepest →
        power = session.yields (Int64.ofInt (p.toInt ^ q.toInt.toNat))) ∧
      (deepest ≤ q.toInt ∨ q.toInt < 0 → power = session.exceeds "pow")) := by
  intro deepest factorial fibonacci power
  obtain ⟨small, counted, deep⟩ :=
    evaluate_fact granted bodies_pos nesting_le holdsFact properX boundX
  refine ⟨⟨fun small_le => small (by omega), counted, deep⟩, ?_, ?_⟩
  · exact evaluate_fib granted bodies_pos nesting_le holdsFib properX boundX
  · exact evaluate_pow granted nesting_le bodies_lt holdsPow properY properZ
      boundY boundZ

/-- With 30 active bodies at most, `x` at the limit and `z` below zero. -/
theorem evaluate_recursive_deepest :
    let session : Session :=
      { environment :=
          ((Environment.empty.assign "x" 30).assign "y" 3).assign "z" (-1)
        functions := preludeFunctions
        limits := ⟨30, 93⟩ }
    session.evaluate ("fact(" ++ "x" ++ ")") =
        session.yields (Int64.ofNat (Nat.factorial 30)) ∧
      session.evaluate ("fib(" ++ "x" ++ ")") =
        session.yields (Int64.ofNat (Nat.fib 30)) ∧
      session.evaluate ("pow(" ++ "y" ++ "," ++ "z" ++ ")") =
        session.exceeds "pow" := by
  intro session
  have holds (name : String) : session.HoldsPrelude name := rfl
  have boundX : session.environment.find? "x" = some 30 := by
    simp [session]
  have boundY : session.environment.find? "y" = some 3 := by
    simp [session]
  have boundZ : session.environment.find? "z" = some (-1) := by
    simp [session]
  obtain ⟨⟨_, factorial, _⟩, ⟨_, fibonacci, _⟩, _, power⟩ :=
    evaluate_recursive (by decide) (by decide) (by decide) (by decide)
      (holds "fact") (holds "pow") (holds "fib") (by decide) (by decide)
      (by decide) boundX boundY boundZ
  exact ⟨factorial (by decide) (by decide), fibonacci (by decide) (by decide),
    power (.inr (by decide))⟩

end Session
end Calculator
