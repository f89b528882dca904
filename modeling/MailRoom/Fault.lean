import MailRoom.Program.Basic
import MailRoom.Value.Basic

/-! What can go wrong while a program runs, and how it is reported. Messages write out every
integer; one with more digits than are written, which only a tile or a count that no text has given
can have, is outside the model. -/
namespace MailRoom

inductive Fault where
  | emptyHands (rule : Opcode)
  | outsideFloor (tile : Int) (size : Nat)
  | unwrittenTile (tile : Int)
  | unwrittenPointer (tile : Int)
  | pointerLetter (tile : Int) (char : Char)
  | needsNumbers (rule : Opcode) (left right : ValueKind)
  | needsNumber (rule : Opcode) (found : ValueKind)
  | testsNumber (rule : Opcode) (char : Char)
  | incomparable (left right : ValueKind)
  | overflow (rule : Opcode) (result bound : Int)
  | stepLimit (limit : Nat)
  /-- A fault that an observer reports in its own words. -/
  | raised (kind message : String)
  deriving DecidableEq

namespace Fault

def kind : Fault → String
  | emptyHands _ => "EmptyHands"
  | outsideFloor .. | pointerLetter .. => "InvalidAddress"
  | unwrittenTile _ | unwrittenPointer _ => "TileEmpty"
  | needsNumbers .. | needsNumber .. | testsNumber .. | incomparable .. => "TypeMismatch"
  | overflow .. => "Overflow"
  | stepLimit _ => "StepLimitExceeded"
  | raised kind _ => kind

def message : Fault → String
  | emptyHands rule => rule.name ++ " with nothing in hands"
  | outsideFloor tile size =>
    "Tile " ++ toString tile ++ " is outside the floor [0, " ++ toString size ++ ")"
  | unwrittenTile tile => "Tile " ++ toString tile ++ " has never been written"
  | unwrittenPointer tile => "Pointer tile " ++ toString tile ++ " has never been written"
  | pointerLetter tile char =>
    "Pointer tile " ++ toString tile ++ " holds letter '" ++ char.toString ++ "', not an address"
  | needsNumbers rule left right =>
    rule.name ++ " needs two numbers, got " ++ left.name ++ " and " ++ right.name
  | needsNumber rule found => rule.name ++ " needs a number, got " ++ found.name
  | testsNumber rule char =>
    rule.name ++ " tests a number, hands hold letter '" ++ char.toString ++ "'"
  | incomparable left right => "Cannot order " ++ left.name ++ " against " ++ right.name
  | overflow rule result bound =>
    rule.name ++ " result " ++ toString result ++ " is outside [-" ++ toString bound ++ ", " ++
      toString bound ++ "]"
  | stepLimit limit => "Program did not finish within " ++ toString limit ++ " steps"
  | raised _ message => message

end Fault

structure Incident where
  fault : Fault
  instruction : Option Int
  step : Option Int
  location : Option Location
  deriving DecidableEq

namespace Incident

def ofFault (fault : Fault) : Incident := ⟨fault, none, none, none⟩

def text (incident : Incident) : String := incident.fault.kind ++ ": " ++ incident.fault.message

end Incident

end MailRoom
