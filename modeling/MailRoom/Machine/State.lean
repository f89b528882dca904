import MailRoom.Floor
import MailRoom.Machine.Config

/-! The state of a run. -/
namespace MailRoom

structure State where
  /-- The instruction to come; a jump without a target leaves none. -/
  pc : Option Int
  hands : Option Value
  floor : Floor
  inbox : List Value
  /-- How many values of the inbox have been taken. -/
  cursor : Nat
  outbox : List Value
  steps : Nat

inductive StartError where
  | value (error : ValueError)
  | floor (error : LayoutError)

namespace State

def initial (floor : Floor) (inbox : List Value) : State where
  pc := some 0
  hands := none
  floor := floor
  inbox := inbox
  cursor := 0
  outbox := []
  steps := 0

def start (room : Nat) (config : Config) (layout : List (Int × Value)) (inbox : List Value) :
    Except LayoutError State :=
  (Floor.layOut room config.floorSize layout).map (initial · inbox)

/-- A start from documents: the floor's values are read first, then laid out, then the inbox. -/
def ofJson (room : Nat) (config : Config) (layout : List (Int × Json)) (inbox : List Json) :
    Except StartError State := do
  let values ← layout.mapM fun (tile, raw) =>
    ((Value.ofJson raw).map (tile, ·)).mapError StartError.value
  let floor ← (Floor.layOut room config.floorSize values).mapError StartError.floor
  let inbox ← inbox.mapM fun raw => (Value.ofJson raw).mapError StartError.value
  return initial floor inbox

end State

end MailRoom
