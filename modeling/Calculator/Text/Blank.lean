/-!
# Blanks and lines

Blanks are the characters with the Unicode property `White_Space`.  They
separate tokens and may surround a request.  `trim` drops them at both ends of
a text.  `lines` cuts a text at its line feeds.
-/

namespace Calculator
namespace Text

/-- The characters with the Unicode property `White_Space`. -/
def isBlank (character : Char) : Bool :=
  let code := character.toNat
  (0x9 ≤ code && code ≤ 0xD) || code == 0x20 || code == 0x85 ||
    code == 0xA0 || code == 0x1680 || (0x2000 ≤ code && code ≤ 0x200A) ||
    code == 0x2028 || code == 0x2029 || code == 0x202F || code == 0x205F ||
    code == 0x3000

/-- The number of bytes that characters take in UTF-8. -/
def byteLength (characters : List Char) : Nat :=
  characters.foldr (fun character bytes => character.utf8Size + bytes) 0

/-- A text without the blanks at its two ends. -/
def trim (text : String) : String :=
  let withoutStart := text.toList.dropWhile isBlank
  String.ofList (withoutStart.reverse.dropWhile isBlank).reverse

/-- Drops one carriage return at the start. -/
def dropReturn : List Char → List Char
  | '\r' :: rest => rest
  | characters => characters

/-- Cuts the characters of a text at its line feeds.  The current line and the
lines before it are kept in reverse. -/
def cutLines (current : List Char) (before : List String) :
    List Char → List String
  | [] =>
    if current.isEmpty then before.reverse
    else (String.ofList current.reverse :: before).reverse
  | '\n' :: rest =>
    cutLines [] (String.ofList (dropReturn current).reverse :: before) rest
  | character :: rest => cutLines (character :: current) before rest

/-- The lines of a text.  A line ends at a line feed, which is dropped together
with one carriage return before it; what follows the last line feed is a line
unless it is empty. -/
def lines (text : String) : List String :=
  cutLines [] [] text.toList

end Text
end Calculator
