/-! Text in general: a sequence of code points, in which half a surrogate pair may stand alone.
A `String` holds characters only; documents can hold more. -/
namespace MailRoom

inductive CodePoint where
  | scalar (char : Char)
  | surrogate (offset : Fin 0x800)
  deriving DecidableEq, Repr

namespace CodePoint

def toNat : CodePoint → Nat
  | scalar char => char.toNat
  | surrogate offset => 0xd800 + offset

/-- The code point of a number, or none beyond U+10FFFF. -/
def ofNat? (code : Nat) : Option CodePoint :=
  if valid : code.isValidChar then some (scalar (Char.ofNatAux code valid))
  else if half : code - 0xd800 < 0x800 then some (surrogate ⟨code - 0xd800, half⟩)
  else none

def char? : CodePoint → Option Char
  | scalar char => some char
  | surrogate _ => none

end CodePoint

abbrev Text := List CodePoint

namespace Text

def ofString (string : String) : Text := string.toList.map .scalar

def toString? (text : Text) : Option String := (text.mapM CodePoint.char?).map String.ofList

end Text

end MailRoom
