import MailRoom.Json.Basic

/-! What a worker carries: numbers of 32 bits and letters. -/
namespace MailRoom

structure Number where
  val : Int
  lower : -2147483648 ≤ val
  upper : val ≤ 2147483647
  deriving DecidableEq

namespace Number

def max : Int := 2147483647

def ofInt? (value : Int) : Option Number :=
  if fits : -2147483648 ≤ value ∧ value ≤ 2147483647 then some ⟨value, fits.1, fits.2⟩ else none

def zero : Number := ⟨0, by decide, by decide⟩

end Number

inductive Value where
  | number (number : Number)
  | letter (char : Char)
  deriving DecidableEq

inductive ValueKind where
  | number
  | letter
  deriving DecidableEq, Repr

def ValueKind.name : ValueKind → String
  | number => "NUMBER"
  | letter => "LETTER"

inductive ValueError where
  | notInteger (raw : Json)
  | tooWide (value : Int)
  | notOneCharacter (raw : Json)
  | loneSurrogate (raw : Json)
  | unusable (raw : Json)
  | unknownKind (name : String)

/-- The error in words, unless it quotes a document that is nested deeper than is followed. -/
def ValueError.message (depth : Nat) : ValueError → Option String
  | notInteger raw => (raw.display depth).map ("Number tile needs an int, got " ++ ·)
  | tooWide value => some ("Number " ++ toString value ++ " does not fit in 32 bits")
  | notOneCharacter raw =>
    (raw.display depth).map ("Letter tile needs exactly one character, got " ++ ·)
  | loneSurrogate raw =>
    (raw.display depth).map ("Letter tile needs a Unicode scalar value, got " ++ ·)
  | unusable raw => (raw.display depth).map ("Cannot use " ++ · ++ " as a tile value")
  | unknownKind name => some ("Unknown value type '" ++ name ++ "'")

namespace Value

def kind : Value → ValueKind
  | number _ => .number
  | letter _ => .letter

def text : Value → String
  | number value => toString value.val
  | letter char => char.toString

def ofInt (value : Int) : Except ValueError Value :=
  match Number.ofInt? value with
  | some found => .ok (number found)
  | none => .error (.tooWide value)

def ofCodePoint : CodePoint → Except ValueError Value
  | .scalar char => .ok (letter char)
  | .surrogate offset => .error (.loneSurrogate (.text [.surrogate offset]))

def numberOfJson : Json → Except ValueError Value
  | .int value => ofInt value
  | other => .error (.notInteger other)

def letterOfJson : Json → Except ValueError Value
  | .text [point] => ofCodePoint point
  | other => .error (.notOneCharacter other)

/-- An integer is a number, a text of one character a letter. -/
def ofJson : Json → Except ValueError Value
  | .int value => ofInt value
  | .text [point] => ofCodePoint point
  | other => .error (.unusable other)

def ofKind (name : String) (raw : Json) : Except ValueError Value :=
  if name = ValueKind.number.name then numberOfJson raw
  else if name = ValueKind.letter.name then letterOfJson raw
  else .error (.unknownKind name)

end Value

end MailRoom
