import MailRoom.Text.Blank
import MailRoom.Text.Digit
import MailRoom.Text.Quoted

/-! Decimal numerals as they stand in texts: blanks around them, a sign, digits of any script, and
single underscores between digits. -/
namespace MailRoom

inductive NumeralError where
  | malformed (source : Text)
  | tooLong (digits : Nat)
  deriving DecidableEq

namespace Numeral

/-- The longest numeral that is read, counted in digits. -/
def maxDigits : Nat := 4300

/-- Blanks that may stand around a numeral: every blank but the information separators. -/
def isPadding (point : CodePoint) : Bool :=
  isBlank point.toNat && !(0x1c ≤ point.toNat && point.toNat ≤ 0x1f)

def isUnderscore (point : CodePoint) : Bool := point == .scalar '_'

def digit? (point : CodePoint) : Option Nat := decimalDigit? point.toNat

def isBody (point : CodePoint) : Bool := (digit? point).isSome || isUnderscore point

/-- Underscores stand singly and between digits. -/
def wellPlaced : Text → Bool
  | [] => true
  | [last] => !isUnderscore last
  | point :: next :: rest =>
    !(isUnderscore point && isUnderscore next) && wellPlaced (next :: rest)

/-- The number that a row of digits denotes. -/
def valueOf (digits : List Nat) : Nat := digits.foldl (fun value digit => 10 * value + digit) 0

def unsigned (source body : Text) : Except NumeralError Nat :=
  let number := body.takeWhile isBody
  let digits := number.filterMap digit?
  if number.isEmpty || (number.head?.map isUnderscore).getD false || !wellPlaced number then
    .error (.malformed source)
  else if digits.length > maxDigits then .error (.tooLong digits.length)
  else if !(body.dropWhile isBody).isEmpty then .error (.malformed source)
  else .ok (valueOf digits)

/-- Reads a numeral; an error quotes the text as it stood. -/
def read (source : Text) : Except NumeralError Int :=
  match trimBoth isPadding source with
  | .scalar '-' :: body => (unsigned source body).map fun value => -(value : Int)
  | .scalar '+' :: body => (unsigned source body).map fun value => (value : Int)
  | body => (unsigned source body).map fun value => (value : Int)

end Numeral

namespace NumeralError

/-- How much of a quoted text an error shows. -/
def shownLength : Nat := 200

def message : NumeralError → String
  | malformed source =>
    "invalid literal for int() with base 10: " ++
      String.ofList (source.quoted.toList.take shownLength)
  | tooLong digits =>
    s!"Exceeds the limit ({Numeral.maxDigits} digits) for integer string conversion: value has " ++
      s!"{digits} digits; use sys.set_int_max_str_digits() to increase the limit"

end NumeralError

end MailRoom
