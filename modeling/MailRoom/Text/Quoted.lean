import MailRoom.Text.CodePoint
import MailRoom.Text.Printable

/-! Quoting: a text on one line, with everything that cannot be seen written as an escape. -/
namespace MailRoom.Quoted

/-- The quote is single, unless that alone would need an escape. -/
def quoteFor (text : Text) : Char :=
  if text.contains (.scalar '\'') && !text.contains (.scalar '"') then '"' else '\''

def hexDigits (width code : Nat) : String :=
  let digits := Nat.toDigits 16 code
  String.ofList (List.replicate (width - digits.length) '0' ++ digits)

/-- An unprintable code point as a numbered escape of the shortest of three widths. -/
def numbered (code : Nat) : String :=
  if code ≤ 0xff then "\\x" ++ hexDigits 2 code
  else if code ≤ 0xffff then "\\u" ++ hexDigits 4 code
  else "\\U" ++ hexDigits 8 code

def escape (quote : Char) (point : CodePoint) : String :=
  match point with
  | .surrogate _ => numbered point.toNat
  | .scalar char =>
    if char = quote ∨ char = '\\' then String.ofList ['\\', char]
    else if char = '\n' then "\\n"
    else if char = '\r' then "\\r"
    else if char = '\t' then "\\t"
    else if isPrintable char.toNat then char.toString
    else numbered char.toNat

end Quoted

/-- The text between quotes, escaped. -/
def Text.quoted (text : Text) : String :=
  let quote := Quoted.quoteFor text
  quote.toString ++ String.join (text.map (Quoted.escape quote)) ++ quote.toString

end MailRoom
