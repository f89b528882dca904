import MailRoom.Text.CodePoint
import MailRoom.Text.Ranges

/-! Blank characters, and trimming them off both ends of a text. -/
namespace MailRoom

namespace Blank

def ranges : Ranges :=
  [(0x9, 0xd), (0x1c, 0x20), (0x85, 0x85), (0xa0, 0xa0), (0x1680, 0x1680), (0x2000, 0x200a),
   (0x2028, 0x2029), (0x202f, 0x202f), (0x205f, 0x205f), (0x3000, 0x3000)]

end Blank

/-- White space of any script, the four information separators included. -/
def isBlank (code : Nat) : Bool := Blank.ranges.covers code

/-- What is left when `drop` is taken off both ends. -/
def trimBoth (drop : α → Bool) (items : List α) : List α :=
  ((items.dropWhile drop).reverse.dropWhile drop).reverse

def Text.trim (text : Text) : Text := trimBoth (fun point => isBlank point.toNat) text

def trimChars (chars : List Char) : List Char := trimBoth (fun char => isBlank char.toNat) chars

end MailRoom
