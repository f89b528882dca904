/-! Observers: who is called when, and what an observer may do besides taking note. -/
namespace MailRoom

inductive Event where
  | programStart
  | beforeInstruction
  | afterInstruction
  | onError
  | programEnd
  deriving DecidableEq, Repr

namespace Event

def name : Event → String
  | programStart => "program_start"
  | beforeInstruction => "before_instruction"
  | afterInstruction => "after_instruction"
  | onError => "on_error"
  | programEnd => "program_end"

def all : List Event :=
  [programStart, beforeInstruction, afterInstruction, onError, programEnd]

def ofName? (word : String) : Option Event := all.find? fun event => event.name = word

end Event

inductive Topic where
  | event (name : String)
  | every (period : Int)
  deriving DecidableEq

/-- What an observer does at one of its calls, which are counted from one: report a fault, end the
run, or enrol another observer. -/
inductive Cue where
  | fault (call : Int) (kind message : String)
  | halt (call : Int)
  | enrol (call : Int) (topic : Topic) (name : String) (priority : Int) (plan : List Cue)

namespace Cue

def call : Cue → Int
  | fault call _ _ => call
  | halt call => call
  | enrol call _ _ _ _ => call

mutual

/-- How many observers a cue can bring in, those that they bring in themselves included. -/
def weight : Cue → Nat
  | fault _ _ _ => 0
  | halt _ => 0
  | enrol _ _ _ _ plan => 1 + totalWeight plan

def totalWeight : List Cue → Nat
  | [] => 0
  | cue :: rest => cue.weight + totalWeight rest

end

end Cue

/-- A request to be called. Among the observers of an event a higher priority comes first. -/
structure Request where
  topic : Topic
  name : String
  priority : Int
  plan : List Cue

inductive RegistryError where
  | unknownEvent (name : String)
  | badPeriod
  deriving DecidableEq

def RegistryError.message : RegistryError → String
  | unknownEvent name => "Unknown event '" ++ name ++ "'"
  | badPeriod => "every_n_steps must be >= 1"

end MailRoom
