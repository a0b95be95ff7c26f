/-!
# Decimal numbers

Values are 64-bit integers.  They are written in decimal with a minus sign for
negative ones, and read by summing up digits on the circle of 64-bit integers,
so that an over-long literal wraps.
-/

namespace Calculator
namespace Decimal

/-- The character of a digit below ten. -/
def digit (number : Nat) : Char :=
  Char.ofNat ('0'.toNat + number)

/-- The decimal digits of a natural number, without leading zeros. -/
def digits (number : Nat) : List Char :=
  if number < 10 then [digit number]
  else digits (number / 10) ++ [digit (number % 10)]

/-- The decimal text of a value. -/
def text (value : Int64) : String :=
  let magnitude := digits value.toInt.natAbs
  String.ofList (if value < 0 then '-' :: magnitude else magnitude)

/-- The value of decimal digits. -/
def magnitude (digits : List Char) : Int64 :=
  digits.foldl
    (fun total digit => total * 10 + Int64.ofNat (digit.toNat - '0'.toNat)) 0

/-- The value of decimal digits with an optional minus sign before them. -/
def value : List Char → Int64
  | '-' :: digits => -magnitude digits
  | digits => magnitude digits

end Decimal
end Calculator
