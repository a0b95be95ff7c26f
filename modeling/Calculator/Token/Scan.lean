import Calculator.SyntaxError
import Calculator.Text.Blank
import Calculator.Token

/-!
# Scanning

A request is cut into tokens from left to right.  Blanks are skipped; a number
is a run of digits, a name is a letter with the letters and digits after it,
and an operator is as long as it can be.  A request in which some character
begins nothing of this kind is refused at the first such character.
-/

namespace Calculator

/-- The kind of the token that starts with `first`, and how many characters of
`rest` belong to it. -/
def TokenKind.recognize? (first : Char) (rest : List Char) :
    Option (TokenKind × Nat) :=
  if first.isDigit then
    some (.number, (rest.takeWhile Char.isDigit).length)
  else if first.isAlpha then
    some (.name, (rest.takeWhile Char.isAlphanum).length)
  else
    match rest.head? == some '=', ofCharacterEqual? first with
    | true, some kind => some (kind, 1)
    | _, _ => (ofCharacter? first).map (·, 0)

namespace Token

/-- Scans the rest of a line that starts at `column`; `before` holds the tokens
so far in reverse. -/
def scanFrom (line column : Nat) (before : List Token) :
    List Char → Except SyntaxError (List Token)
  | [] => .ok before.reverse
  | first :: rest =>
    if Text.isBlank first then
      scanFrom line (column + first.utf8Size) before rest
    else
      match TokenKind.recognize? first rest with
      | none =>
        .error (.unrecognizedCharacter
          (.columns line column (column + first.utf8Size - 1)) first)
      | some (kind, count) =>
        let characters := first :: rest.take count
        let next := column + Text.byteLength characters
        let token : Token :=
          ⟨kind, String.ofList characters, .columns line column (next - 1)⟩
        scanFrom line next (token :: before) (rest.drop count)
termination_by characters => characters.length
decreasing_by
  · simp
  · simp only [List.length_drop, List.length_cons]
    omega

/-- The tokens of a text that stands on the given line. -/
def scan (line : Nat) (text : String) : Except SyntaxError (List Token) :=
  scanFrom line 1 [] text.toList

end Token
end Calculator
