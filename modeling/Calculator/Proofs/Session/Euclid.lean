import Mathlib.Data.Int.GCD
import Calculator.Proofs.Session.Prelude

/-!
# The greatest common factor

The function `gcf` of the prelude is Euclid's algorithm.  The remainder is at
most half of the number that is divided, so the product of the magnitudes of the
arguments is halved from one body to the next, and the algorithm ends long
before it comes to the standard limits.
-/

namespace Calculator

/-- The magnitude of a remainder is the remainder of the magnitudes. -/
theorem natAbs_toInt_mod (left right : Int64) :
    (left % right).toInt.natAbs = left.toInt.natAbs % right.toInt.natAbs := by
  rw [Int64.toInt_mod, Int.natAbs_tmod]

theorem natAbs_toInt_le (value : Int64) : value.toInt.natAbs ≤ 2 ^ 63 := by
  have low := value.le_toInt
  have high := value.toInt_lt
  omega

theorem natAbs_toInt_pos {value : Int64} (nonzero : value ≠ 0) :
    0 < value.toInt.natAbs := by
  have toInt_ne := mt (Operator.eq_zero_iff_toInt value).mpr nonzero
  omega

/-- A remainder is at most half of the number that is divided. -/
theorem two_mul_mod_le {left right : Nat} (right_le : right ≤ left)
    (positive : 0 < right) : 2 * (left % right) ≤ left := by
  have mod_lt := Nat.mod_lt left positive
  have quotient_pos := Nat.div_pos right_le positive
  have right_le_product := Nat.le_mul_of_pos_right right quotient_pos
  have sum_eq := Nat.div_add_mod left right
  omega

namespace Prelude

open Calculator.Expr Evaluator

variable {functions : FunctionTable} {limits : Limits} {room depth : Nat}

/-- Nothing can be divided by zero. -/
theorem reply_gcf_zero (free : depth < limits.maximumCallDepth) (a : Int64) :
    reply functions limits (room + 5) depth gcf [a, 0] =
      .error (.divisionByZero "(a % b)" .unknown) := by
  let own := Environment.empty.bindAll ["a", "b"] [a, 0]
  obtain ⟨boundA, boundB⟩ := find?_pair a 0
  have fails : Leads functions limits (room + 2) (depth + 1) own
      (.binary .modulo (named "a") (named "b"))
      (.error (.divisionByZero "(a % b)" .unknown)) own :=
    .divisionByZero (.var boundA) (.var boundB) rfl
  exact reply_of_lt free (.testFails (.leftFails (.storeFails fails)))

/-- One body of the algorithm. -/
theorem reply_gcf (found : functions.find? "gcf" = some gcf)
    (free : depth < limits.maximumCallDepth) (a : Int64) {b : Int64}
    (nonzero : b ≠ 0) :
    reply functions limits (room + 5) depth gcf [a, b] =
      if a % b = 0 then .ok b
      else reply functions limits (room + 3) (depth + 1) gcf [b, a % b] := by
  let own := Environment.empty.bindAll ["a", "b"] [a, b]
  let after := own.assign "rem" (a % b)
  obtain ⟨boundA, boundB⟩ := find?_pair a b
  have stillB : after.find? "b" = some b := by
    rw [Environment.find?_assign, if_neg (by decide), boundB]
  have boundRem : after.find? "rem" = some (a % b) := by
    rw [Environment.find?_assign, if_pos rfl]
  have remainder : Leads functions limits (room + 2) (depth + 1) own
      (.binary .modulo (named "a") (named "b")) (.ok (a % b)) own :=
    .operation (.var boundA) (.var boundB) (if_neg nonzero)
  have test : Leads functions limits (room + 4) (depth + 1) own
      (.binary .equal
        (.assign (named "rem") (.binary .modulo (named "a") (named "b")))
        (number 0))
      (.ok (Operator.truth (a % b = 0))) after :=
    .operation (.store remainder) (.literal 0 _) rfl
  by_cases divides : a % b = 0
  · rw [if_pos divides]
    exact reply_of_lt free (.onTrue test divides (.var stillB))
  · rw [if_neg divides]
    exact reply_of_lt free (.onFalse test divides
      (.call found rfl (Nat.le_refl 2)
        (.cons (.var stillB) (.cons (.var boundRem) .nil))))

/-- The reply is a value with this magnitude. -/
def RepliesMagnitude (magnitude : Nat) (reply : Except RuntimeError Int64) :
    Prop :=
  ∃ value : Int64, reply = .ok value ∧ value.toInt.natAbs = magnitude

/-- A body has the greatest common factor if the next one has it. -/
theorem RepliesMagnitude.of_next (found : functions.find? "gcf" = some gcf)
    (free : depth < limits.maximumCallDepth) {a b : Int64} (nonzero : b ≠ 0)
    (next : a % b ≠ 0 → RepliesMagnitude
      (Nat.gcd b.toInt.natAbs (a % b).toInt.natAbs)
      (reply functions limits (room + 3) (depth + 1) gcf [b, a % b])) :
    RepliesMagnitude (Nat.gcd a.toInt.natAbs b.toInt.natAbs)
      (reply functions limits (room + 5) depth gcf [a, b]) := by
  rw [reply_gcf found free a nonzero]
  have mod_eq := natAbs_toInt_mod a b
  by_cases divides : a % b = 0
  · rw [if_pos divides]
    rw [divides] at mod_eq
    exact ⟨b, rfl, (Nat.gcd_eq_right (Nat.dvd_of_mod_eq_zero mod_eq.symm)).symm⟩
  · rw [if_neg divides, Nat.gcd_comm, Nat.gcd_rec, Nat.gcd_comm, ← mod_eq]
    exact next divides

/-- With a smaller divisor, the algorithm needs at most as many bodies as the
product of the magnitudes has bits. -/
theorem repliesMagnitude_of_le (found : functions.find? "gcf" = some gcf)
    {bits : Nat} {a b : Int64} (nonzero : b ≠ 0)
    (magnitude_le : b.toInt.natAbs ≤ a.toInt.natAbs)
    (product_lt : a.toInt.natAbs * b.toInt.natAbs < 2 ^ bits)
    (room_le : 2 * bits + 3 ≤ room)
    (bodies_le : depth + bits ≤ limits.maximumCallDepth) :
    RepliesMagnitude (Nat.gcd a.toInt.natAbs b.toInt.natAbs)
      (reply functions limits room depth gcf [a, b]) := by
  have positive := natAbs_toInt_pos nonzero
  induction bits generalizing room depth a b with
  | zero =>
      have product_pos := Nat.mul_pos (Nat.lt_of_lt_of_le positive magnitude_le)
        positive
      omega
  | succ bits induction =>
      obtain ⟨room, rfl⟩ := Nat.exists_eq_add_of_le' (by omega : 5 ≤ room)
      refine .of_next found (by omega) nonzero fun remains => ?_
      have mod_eq := natAbs_toInt_mod a b
      have mod_lt := Nat.mod_lt a.toInt.natAbs positive
      refine induction remains (by omega) ?_ (by omega) (by omega)
        (natAbs_toInt_pos remains)
      have halved := Nat.mul_le_mul_left b.toInt.natAbs
        (two_mul_mod_le magnitude_le positive)
      rw [Nat.mul_left_comm, Nat.mul_comm b.toInt.natAbs a.toInt.natAbs]
        at halved
      rw [mod_eq]
      omega

/-- Whatever the arguments are, 128 bodies are enough. -/
theorem repliesMagnitude_gcf (found : functions.find? "gcf" = some gcf)
    (a : Int64) {b : Int64} (nonzero : b ≠ 0) (room_le : 259 ≤ room)
    (bodies_le : depth + 128 ≤ limits.maximumCallDepth) :
    RepliesMagnitude (Nat.gcd a.toInt.natAbs b.toInt.natAbs)
      (reply functions limits room depth gcf [a, b]) := by
  have product_le : a.toInt.natAbs * b.toInt.natAbs ≤ 2 ^ 63 * 2 ^ 63 :=
    Nat.mul_le_mul (natAbs_toInt_le a) (natAbs_toInt_le b)
  have product_lt : a.toInt.natAbs * b.toInt.natAbs < 2 ^ 127 :=
    Nat.lt_of_le_of_lt product_le (by decide)
  by_cases magnitude_le : b.toInt.natAbs ≤ a.toInt.natAbs
  · exact repliesMagnitude_of_le found nonzero magnitude_le product_lt
      (by omega) (by omega)
  · -- The first body exchanges the arguments.
    obtain ⟨room, rfl⟩ := Nat.exists_eq_add_of_le' (by omega : 5 ≤ room)
    refine .of_next found (by omega) nonzero fun remains => ?_
    have mod_eq := natAbs_toInt_mod a b
    rw [Nat.mod_eq_of_lt (by omega)] at mod_eq
    rw [Nat.mul_comm, ← mod_eq] at product_lt
    exact repliesMagnitude_of_le found remains (by omega) product_lt (by omega)
      (by omega)

end Prelude

namespace Session

variable {session : Session}

/-- Within the standard limits, whose stack the system grants, `gcf` fails if it
has to divide by zero, and has a greatest common factor of its arguments
otherwise.  It changes no variable. -/
theorem evaluate_gcf {x y : String} {a b : Int64}
    (limits_eq : session.limits = .standard)
    (granted : session.grants Limits.standard.stackSize = true)
    (holds : session.HoldsPrelude "gcf")
    (properX : IsProperName x) (properY : IsProperName y)
    (boundX : session.environment.find? x = some a)
    (boundY : session.environment.find? y = some b) :
    let answer := session.evaluate ("gcf(" ++ x ++ "," ++ y ++ ")")
    (b = 0 → ∃ error, answer = (.error error, session) ∧
      error.kind = .arithmeticFault) ∧
    (b ≠ 0 → ∃ value : Int64,
      answer = (.ok (.value value), { session with previous := value }) ∧
      value.toInt ∣ a.toInt ∧ value.toInt ∣ b.toInt ∧
      value.toInt.natAbs = Int.gcd a.toInt b.toInt) := by
  intro answer
  have granted : session.granted = true := by
    rw [Session.granted, limits_eq, granted]
  have nesting_eq : session.limits.maximumNesting = 49998 + 2 := by
    rw [limits_eq]
    rfl
  have bodies_le : 0 + 128 ≤ session.limits.maximumCallDepth := by
    rw [limits_eq]
    decide
  have isRecursive : Prelude.gcf ∈ Prelude.recursive := List.mem_cons_self
  have text_eq : "gcf" ++ "(" ++ ",".intercalate [x, y] ++ ")" =
      "gcf(" ++ x ++ "," ++ y ++ ")" := by
    simp [String.intercalate_cons_cons, String.append_assoc]
  have properAll : ∀ name ∈ [x, y], IsProperName name :=
    List.forall_mem_cons.mpr ⟨properX, List.forall_mem_singleton.mpr properY⟩
  have concludes : session.Concludes _ answer :=
    text_eq ▸ concludes_recursive granted nesting_eq isRecursive holds
      properAll (.cons boundX (.cons boundY .nil)) (Nat.le_refl 2)
  refine ⟨fun zero => ?_, fun nonzero => ?_⟩
  · subst zero
    rw [Prelude.reply_gcf_zero (by omega)] at concludes
    obtain ⟨error, answer_eq, kind_eq⟩ := concludes.exists_error
    exact ⟨.ofRuntime error, answer_eq, kind_eq⟩
  · obtain ⟨value, reply_eq, magnitude_eq⟩ :=
      Prelude.repliesMagnitude_gcf (holds.find? isRecursive) a nonzero
        (by omega : 259 ≤ 49998 + 1) bodies_le
    rw [reply_eq] at concludes
    refine ⟨value, concludes.eq_yields, ?_, ?_, magnitude_eq⟩
    · rw [← Int.natAbs_dvd_natAbs, magnitude_eq]
      exact Nat.gcd_dvd_left ..
    · rw [← Int.natAbs_dvd_natAbs, magnitude_eq]
      exact Nat.gcd_dvd_right ..

/-- For instance, the least value and `-6` have the factor two in common. -/
theorem evaluate_gcf_least :
    let session : Session :=
      { environment :=
          (Environment.empty.assign "x" Int64.minValue).assign "y" (-6)
        functions := preludeFunctions }
    ∃ value : Int64,
      session.evaluate ("gcf(" ++ "x" ++ "," ++ "y" ++ ")") =
        (.ok (.value value), { session with previous := value }) ∧
      value.toInt ∣ Int64.minValue.toInt ∧ value.toInt ∣ (-6 : Int64).toInt ∧
      value.toInt.natAbs = Int.gcd Int64.minValue.toInt (-6 : Int64).toInt := by
  intro session
  have holds : session.HoldsPrelude "gcf" := rfl
  have boundX : session.environment.find? "x" = some Int64.minValue := by
    simp [session]
  have boundY : session.environment.find? "y" = some (-6) := by
    simp [session]
  have granted : session.grants Limits.standard.stackSize = true := by decide
  exact (evaluate_gcf rfl granted holds (by decide) (by decide) boundX boundY).2
    (by decide)

end Session
end Calculator
