import Calculator.Session

/-!
# The prelude

The functions that an interactive session starts with.
-/

namespace Calculator

/-- The definitions of the prelude. -/
def preludeSources : List String :=
  [ "deffn gcf(a,b) = (rem = a%b) == 0?b:gcf(b,rem)",
    "deffn lcm(a,b) = a*b/gcf(a,b)",
    "deffn mod(a,b) = a % b",
    "deffn sqr(s) = s*s",
    "deffn abs(x) = x > 0 ? x : -x",
    "deffn cube(x) = x * x * x",
    "deffn sum3(x,y,z) = x + y + z",
    "deffn avg5(x,y,z,a,b) = (x + y + z + a + b)/5",
    "deffn odd(x) = x%2?1:0",
    "deffn even(x) = x%2?0:1",
    "deffn neg(x) = -x",
    "deffn fact(n) = n <= 1 ? 1 : n * fact(n-1)",
    "deffn pow(a,b)= b==0?1:a*pow(a,b-1)",
    "deffn fib(n) = n <2?n:fib(n-1)+fib(n-2)" ]

namespace Session

/-- Goes on after an answer unless it is an error, and gathers the signature of
the function that was defined. -/
def gather (answer : Except Error Outcome × Session)
    (next : Session → Except Error (List Signature) × Session) :
    Except Error (List Signature) × Session :=
  match answer with
  | (.error error, after) => (.error error, after)
  | (.ok (.value _), after) => next after
  | (.ok (.defined signature), after) =>
    let (signatures, last) := next after
    (signatures.map (signature :: ·), last)

/-- Answers requests and gathers the signatures of the functions that they
define, up to the first request that fails. -/
def defineAll (session : Session) :
    List String → Except Error (List Signature) × Session
  | [] => (.ok [], session)
  | source :: sources =>
    gather (session.evaluate source) fun after => after.defineAll sources

/-- Registers the functions of the prelude. -/
def loadPrelude (session : Session) :
    Except Error (List Signature) × Session :=
  session.defineAll preludeSources

end Session
end Calculator
