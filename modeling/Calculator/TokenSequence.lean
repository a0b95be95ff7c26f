import Calculator.Token.Scan

/-!
# Token sequences

A buffer of tokens with a cursor.  Tokens before the cursor are consumed; the
tokens from the cursor on remain to be read.
-/

namespace Calculator

/-- A buffer of tokens and the number of tokens consumed. -/
structure TokenSequence where
  tokens : List Token
  cursor : Nat

namespace TokenSequence

/-- A sequence of which nothing is consumed. -/
def ofList (tokens : List Token) : TokenSequence :=
  ⟨tokens, 0⟩

/-- The tokens of a text that stands on the given line. -/
def scan (line : Nat) (text : String) : Except SyntaxError TokenSequence :=
  (Token.scan line text).map ofList

/-- The tokens that are not consumed. -/
def remaining (sequence : TokenSequence) : List Token :=
  sequence.tokens.drop sequence.cursor

/-- The next token. -/
def peek? (sequence : TokenSequence) : Option Token :=
  sequence.tokens[sequence.cursor]?

/-- The token at a distance after the cursor.  Places are numbered modulo
`2 ^ 64`, so that a distance close to `2 ^ 64` looks back at consumed tokens. -/
def peekAt? (sequence : TokenSequence) (distance : UInt64) : Option Token :=
  sequence.tokens[(sequence.cursor + distance.toNat) % UInt64.size]?

/-- As long as the place stays below `2 ^ 64`, a distance counts the tokens that
are not consumed. -/
theorem peekAt?_eq_getElem?_remaining (sequence : TokenSequence)
    (distance : UInt64)
    (inRange : sequence.cursor + distance.toNat < UInt64.size) :
    sequence.peekAt? distance = sequence.remaining[distance.toNat]? := by
  rw [peekAt?, remaining, Nat.mod_eq_of_lt inRange, List.getElem?_drop]

/-- Consumes the next token, if there is one. -/
def advance (sequence : TokenSequence) : Option Token × TokenSequence :=
  match sequence.peek? with
  | none => (none, sequence)
  | some token => (some token, ⟨sequence.tokens, sequence.cursor + 1⟩)

/-- Puts a token right at the cursor, so that it is the next one. -/
def prepend (sequence : TokenSequence) (token : Token) : TokenSequence :=
  ⟨sequence.tokens.take sequence.cursor ++ token :: sequence.remaining,
    sequence.cursor⟩

/-- The number of tokens, consumed ones included. -/
def size (sequence : TokenSequence) : Nat :=
  sequence.tokens.length

/-- No token was ever there. -/
def isEmpty (sequence : TokenSequence) : Bool :=
  sequence.tokens.isEmpty

/-- Every token is consumed. -/
def isAtEnd (sequence : TokenSequence) : Bool :=
  sequence.tokens.length ≤ sequence.cursor

/-- Two sequences are alike if their tokens are so one by one. -/
def alike (first second : TokenSequence) : Bool :=
  first.size == second.size &&
    (first.tokens.zip second.tokens).all fun pair => pair.1.alike pair.2

end TokenSequence
end Calculator
