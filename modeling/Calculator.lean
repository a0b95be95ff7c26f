import Calculator.Evaluator.Adequacy
import Calculator.Main
import Calculator.Proofs.Grammar.Trees
import Calculator.Proofs.Grammar.Reading
import Calculator.Proofs.Grammar.Rule
import Calculator.Proofs.Grammar.Soundness
import Calculator.Proofs.Grammar.Completeness
import Calculator.Proofs.Grammar.Requests
import Calculator.Proofs.Evaluator.Arithmetic
import Calculator.Proofs.Evaluator.Derivation
import Calculator.Proofs.Evaluator.Agreement
import Calculator.Proofs.Evaluator.Bounds
import Calculator.Proofs.Evaluator.Substitution
import Calculator.Proofs.Evaluator.Places
import Calculator.Proofs.Evaluator.Names
import Calculator.Proofs.Grammar.Replacement
import Calculator.Proofs.Text.Decimal
import Calculator.Proofs.Session.Continuation
import Calculator.Proofs.Evaluator.Frame
import Calculator.Proofs.Evaluator.Lockstep
import Calculator.Proofs.Session.Independence
import Calculator.Proofs.Session.History
import Calculator.Proofs.Expr.Pieces
import Calculator.Proofs.Session.WellFormed
import Calculator.Proofs.Token.Spacing
import Calculator.Proofs.Token.Shape
import Calculator.Proofs.Grammar.Names
import Calculator.Proofs.Grammar.Infix
import Calculator.Proofs.Evaluator.Moves
import Calculator.Proofs.Evaluator.Nesting
import Calculator.Proofs.Evaluator.CallFree
import Calculator.Proofs.Session.Nesting
import Calculator.Proofs.Token.Tiling
import Calculator.Proofs.Token.Alphabet
import Calculator.Proofs.Grammar.Steps
import Calculator.Proofs.Grammar.Places
import Calculator.Proofs.Session.Places
import Calculator.Proofs.Grammar.Phrases
import Calculator.Proofs.Grammar.Acceptance
import Calculator.Proofs.Grammar.Prefixes
import Calculator.Proofs.Grammar.Spans
import Calculator.Proofs.Evaluator.Exact
import Calculator.Proofs.Grammar.Literals
import Calculator.Proofs.Session.Exact
import Calculator.Proofs.Evaluator.Calls
import Calculator.Proofs.Session.Prelude
import Calculator.Proofs.Session.Euclid
import Calculator.Proofs.Session.Recursion
import Calculator.Proofs.Evaluator.Reuse
import Calculator.Proofs.Text.Bytes
import Calculator.Proofs.Table.History
import Calculator.Proofs.Expr.Forms
import Calculator.Proofs.Expr.Readability
import Calculator.Proofs.Grammar.Signs
import Calculator.Proofs.Evaluator.Signs
import Calculator.Proofs.Text.Lines
import Calculator.Proofs.Console.Options
import Calculator.Proofs.Console.Turns
import Calculator.Proofs.Console.Runs
import Calculator.Proofs.Console.Conversation
import Calculator.Proofs.Console.Debugging
import Calculator.Proofs.Grammar.Contract
import Calculator.Proofs.Grammar.Conditionals
import Calculator.Proofs.Grammar.Cursor
