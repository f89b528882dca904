import MailRoom.Json.Basic
import MailRoom.Text.Numeral

/-! The lexemes of a JSON text, and what can be wrong with one. An integer beyond the longest
numeral and a quoted text that breaks off are lexemes of their own, so that they count as errors
only where a value is due. -/
namespace MailRoom.Json

/-- Why a text is no JSON. -/
inductive Malformation where
  | byteOrderMark
  | value
  | key
  | colon
  | comma
  | furtherText
  | openText
  | control
  | escape
  | unit
  deriving DecidableEq

namespace Malformation

def message : Malformation → String
  | byteOrderMark => "Unexpected UTF-8 BOM (decode using utf-8-sig)"
  | value => "Expecting value"
  | key => "Expecting property name enclosed in double quotes"
  | colon => "Expecting ':' delimiter"
  | comma => "Expecting ',' delimiter"
  | furtherText => "Extra data"
  | openText => "Unterminated string starting at"
  | control => "Invalid control character at"
  | escape => "Invalid \\escape"
  | unit => "Invalid \\uXXXX escape"

/-- The message with the place, which is counted in code points from the start of the text. -/
def report (malformation : Malformation) (source : Text) (place : Nat) : String :=
  let before := source.take place
  let line := before.count (.scalar '\n') + 1
  let column := (before.reverse.takeWhile (· != .scalar '\n')).length + 1
  malformation.message ++ ": line " ++ toString line ++ " column " ++ toString column ++
    " (char " ++ toString place ++ ")"

end Malformation

inductive Lexeme where
  | openArray
  | closeArray
  | openObject
  | closeObject
  | comma
  | colon
  | text (value : Text)
  | atom (value : Json)
  | tooLong (digits : Nat)
  /-- A quoted text, and what is wrong with it at some place. -/
  | misquoted (malformation : Malformation) (place : Nat)
  /-- No lexeme starts here. -/
  | junk

namespace Lexeme

def isSpace (point : CodePoint) : Bool :=
  [.scalar ' ', .scalar '\t', .scalar '\n', .scalar '\r'].contains point

def digit? : CodePoint → Option Nat
  | .scalar char => if char.isDigit then some (char.toNat - '0'.toNat) else none
  | .surrogate _ => none

def hexDigit? : CodePoint → Option Nat
  | .scalar char =>
    if char.isDigit then some (char.toNat - '0'.toNat)
    else if 'a' ≤ char ∧ char ≤ 'f' then some (char.toNat - 'a'.toNat + 10)
    else if 'A' ≤ char ∧ char ≤ 'F' then some (char.toNat - 'A'.toNat + 10)
    else none
  | .surrogate _ => none

/-- A code point of the basic plane from its four hexadecimal digits. -/
def unit? (digits : List CodePoint) : Option CodePoint := do
  let values ← digits.mapM hexDigit?
  CodePoint.ofNat? (values.foldl (fun value digit => 16 * value + digit) 0)

def escaped? : CodePoint → Option CodePoint
  | .scalar '"' => some (.scalar '"')
  | .scalar '\\' => some (.scalar '\\')
  | .scalar '/' => some (.scalar '/')
  | .scalar 'b' => some (.scalar '\x08')
  | .scalar 'f' => some (.scalar '\x0c')
  | .scalar 'n' => some (.scalar '\n')
  | .scalar 'r' => some (.scalar '\r')
  | .scalar 't' => some (.scalar '\t')
  | _ => none

/-- The rest of a quoted text from some place on, its escapes resolved, and how many code points it
spans with the closing quote. The text has an opening quote at its start, and something has to
follow an escape by number. -/
def quotedBody (start place : Nat) : Text → Except (Malformation × Nat) (Text × Nat)
  | [] | [.scalar '\\'] => .error (.openText, start)
  | .scalar '"' :: _ => .ok ([], 1)
  | .scalar '\\' :: .scalar 'u' :: a :: b :: c :: d :: rest =>
    match unit? [a, b, c, d] with
    | none => .error (.unit, place + 1)
    | some point =>
      if rest.isEmpty then .error (.unit, place + 1)
      else do
        let (body, length) ← quotedBody start (place + 6) rest
        return (point :: body, length + 6)
  | .scalar '\\' :: .scalar 'u' :: _ => .error (.unit, place + 1)
  | .scalar '\\' :: name :: rest =>
    match escaped? name with
    | none => .error (.escape, place)
    | some point => do
      let (body, length) ← quotedBody start (place + 2) rest
      return (point :: body, length + 2)
  | point :: rest =>
    if point.toNat < 0x20 then .error (.control, place)
    else do
      let (body, length) ← quotedBody start (place + 1) rest
      return (point :: body, length + 1)

/-- Two halves of a surrogate pair that stand together are one character. -/
def joinPairs : Text → Text
  | .surrogate high :: .surrogate low :: rest =>
    if high < 0x400 ∧ 0x400 ≤ low then
      .scalar (Char.ofNat (0x10000 + 0x400 * high + (low - 0x400))) :: joinPairs rest
    else .surrogate high :: joinPairs (.surrogate low :: rest)
  | point :: rest => point :: joinPairs rest
  | [] => []

/-- The quoted text that starts at a place, or what is wrong with it; nothing is read behind that.
-/
def quoted (place : Nat) (rest : Text) : Lexeme × Nat :=
  match quotedBody place (place + 1) rest with
  | .ok (body, length) => (text (joinPairs body), length)
  | .error (malformation, place) => (misquoted malformation place, rest.length)

/-- The digits after a point, if a point with digits comes next. -/
def fraction? : Text → Option (List Nat)
  | .scalar '.' :: rest =>
    match (rest.takeWhile fun point => (digit? point).isSome).filterMap digit? with
    | [] => none
    | digits => some digits
  | _ => none

/-- The exponent that comes next, if any, and how many code points it spans. -/
def exponent? : Text → Option (Int × Nat)
  | .scalar mark :: rest =>
    if mark = 'e' ∨ mark = 'E' then
      let (negative, signLength, body) := match rest with
        | .scalar '-' :: body => (true, 1, body)
        | .scalar '+' :: body => (false, 1, body)
        | body => (false, 0, body)
      match (body.takeWhile fun point => (digit? point).isSome).filterMap digit? with
      | [] => none
      | digits =>
        let value : Int := Numeral.valueOf digits
        some (if negative then -value else value, 1 + signLength + digits.length)
    else none
  | _ => none

/-- The digits before the point: a zero alone, or a row that starts with another digit. -/
def wholeDigits (source : Text) : List Nat :=
  match source with
  | .scalar '0' :: _ => [0]
  | _ => (source.takeWhile fun point => (digit? point).isSome).filterMap digit?

/-- A number without its sign, and how many code points it spans. -/
def number? (negative : Bool) (source : Text) : Option (Lexeme × Nat) :=
  let whole := wholeDigits source
  let rest := source.drop whole.length
  let part := fraction? rest
  let partLength := (part.map fun digits => digits.length + 1).getD 0
  let power := exponent? (rest.drop partLength)
  if whole.isEmpty then none
  else if part.isNone && power.isNone then
    if whole.length > Numeral.maxDigits then some (tooLong whole.length, whole.length)
    else
      let value : Int := Numeral.valueOf whole
      some (atom (int (if negative then -value else value)), whole.length)
  else
    let digits := whole ++ part.getD []
    let exponent := (power.map Prod.fst).getD 0 - (part.getD []).length
    some (atom (float (.ofDecimal negative (Numeral.valueOf digits) exponent)),
      whole.length + partLength + (power.map Prod.snd).getD 0)

/-- The names of values; the head of each has been read already. -/
def words : List (Char × String × Json) :=
  [('n', "ull", null), ('t', "rue", bool true), ('f', "alse", bool false),
   ('N', "aN", float .undefined), ('I', "nfinity", float (.infinite false)),
   ('-', "Infinity", float (.infinite true))]

def word? (head : Char) (rest : Text) : Option (Lexeme × Nat) :=
  (words.find? fun (first, tail, _) =>
    first = head && (Text.ofString tail).isPrefixOf rest).map
      fun (_, tail, value) => (atom value, tail.length)

/-- The lexeme that starts at a place with a given code point, and how much of the rest belongs to
it. -/
def first? (place : Nat) (point : CodePoint) (rest : Text) : Option (Lexeme × Nat) :=
  match point with
  | .surrogate _ => none
  | .scalar '[' => some (openArray, 0)
  | .scalar ']' => some (closeArray, 0)
  | .scalar '\x7b' => some (openObject, 0)
  | .scalar '\x7d' => some (closeObject, 0)
  | .scalar ',' => some (comma, 0)
  | .scalar ':' => some (colon, 0)
  | .scalar '"' => some (quoted place rest)
  | .scalar head =>
    match word? head rest with
    | some found => some found
    | none =>
      if head = '-' then number? true rest
      else (number? false (point :: rest)).map fun (lexeme, length) => (lexeme, length - 1)

end Lexeme

/-- All lexemes from a place of a text on, each with its own place, up to the first place where none
starts. -/
def lexemes (place : Nat) : Text → List (Nat × Lexeme)
  | [] => []
  | point :: rest =>
    if Lexeme.isSpace point then lexemes (place + 1) rest
    else match Lexeme.first? place point rest with
      | none => [(place, .junk)]
      | some (lexeme, length) => (place, lexeme) :: lexemes (place + 1 + length) (rest.drop length)
termination_by source => source.length

end MailRoom.Json
