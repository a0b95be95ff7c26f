import Calculator.Text.Graphic

/-!
# Quoted text

Text between double quotes on one line, in which quotes, backslashes and
characters without a visible form are written as escapes.
-/

namespace Calculator
namespace Text

/-- The characters that stand for one character inside quotes. -/
def escape (character : Char) : List Char :=
  match character with
  | '\x00' => ['\\', '0']
  | '\t' => ['\\', 't']
  | '\n' => ['\\', 'n']
  | '\r' => ['\\', 'r']
  | '"' => ['\\', '"']
  | '\\' => ['\\', '\\']
  | _ =>
    if isGraphic character then [character]
    else
      ['\\', 'u', '\x7b'] ++ Nat.toDigits 16 character.toNat ++ ['\x7d']

/-- A text between quotes. -/
def quoted (text : String) : String :=
  String.ofList (['"'] ++ text.toList.flatMap escape ++ ['"'])

end Text
end Calculator
