import MailRoom.Program.Basic

/-! The log of a run: one entry for the start of each step, of which only the newest are kept. -/
namespace MailRoom

structure Entry where
  step : Int
  instruction : Int
  rule : String
  location : Option Location
  statement : Option String
  hands : Option String
  /-- The written tiles and their texts, if the log is to show them. -/
  floor : Option (List (Int × String))
  deriving DecidableEq

namespace Entry

/-- An integer with zeros before its digits up to a width, a minus sign counted in. -/
def padZeros (width : Nat) (value : Int) : String :=
  let sign := if value < 0 then "-" else ""
  let digits := toString value.natAbs
  sign ++ String.ofList (List.replicate (width - sign.length - digits.length) '0') ++ digits

def id (entry : Entry) : String := "s_" ++ padZeros 6 entry.step

end Entry

/-- The newest entries, newest first, as many as the capacity allows. -/
structure Log where
  capacity : Option Nat
  newest : List Entry
  deriving DecidableEq

/-- A log cannot keep fewer than no entries. -/
structure NegativeCapacity where
  deriving DecidableEq

def NegativeCapacity.message (_ : NegativeCapacity) : String := "maxlen must be non-negative"

namespace Log

/-- The capacity where none is asked for. -/
def standardCapacity : Nat := 256

def empty (capacity : Option Nat) : Log := ⟨capacity, []⟩

def capacityOfInt? : Option Int → Except NegativeCapacity (Option Nat)
  | none => .ok none
  | some capacity => if capacity < 0 then .error {} else .ok (some capacity.toNat)

def record (log : Log) (entry : Entry) : Log :=
  match log.capacity with
  | none => { log with newest := entry :: log.newest }
  | some capacity => { log with newest := (entry :: log.newest).take capacity }

def entries (log : Log) : List Entry := log.newest.reverse

def last? (log : Log) : Option Entry := log.newest.head?

def tail (log : Log) (count : Int) : List Entry := (log.newest.take count.toNat).reverse

def clear (log : Log) : Log := { log with newest := [] }

end Log

end MailRoom
