import MailRoom.Text.Numeral
import MailRoom.Value.Basic

/-! Mixed notation: values written in a row with commas between them. A part that reads as a
numeral is a number, any other part is one letter per character. -/
namespace MailRoom.Mixed

def isComma (point : CodePoint) : Bool := point == .scalar ','

/-- The parts between commas, of which there is always at least one. -/
def parts : Text → List Text
  | [] => [[]]
  | point :: rest =>
    if isComma point then [] :: parts rest
    else match parts rest with
      | [] => [[point]]
      | first :: others => (point :: first) :: others

def letters (text : Text) : Except ValueError (List Value) := text.mapM Value.ofCodePoint

def part (text : Text) : Except ValueError (List Value) :=
  match Numeral.read text with
  | .ok number => (Value.ofInt number).map ([·])
  | .error _ => letters text

def read (text : Text) : Except ValueError (List Value) :=
  ((parts text).mapM fun text => part text.trim).map List.flatten

/-- One letter per character and a zero behind them. -/
def zeroTerminated (text : Text) : Except ValueError (List Value) :=
  (letters text).map (· ++ [.number .zero])

end MailRoom.Mixed
