import MailRoom.Machine.Transition
import MailRoom.Observer.Basic

/-! How a run comes to its end, and what an instruction in it leaves behind. -/
namespace MailRoom

inductive Status where
  | completed
  | runtimeError
  deriving DecidableEq, Repr

def Status.name : Status → String
  | completed => "COMPLETED"
  | runtimeError => "RUNTIME_ERROR"

inductive Stop where
  /-- The program ran off its end, the inbox ran dry, or an observer ended the run. -/
  | halt
  | fault (incident : Incident)
  | defect (defect : Defect)
  /-- An observer asked for a registration that was refused. -/
  | refused (error : RegistryError)
  deriving DecidableEq

/-- How a finished run went: completed unless there is an error. -/
structure Verdict where
  steps : Nat
  error : Option Incident
  deriving DecidableEq

namespace Verdict

def status (verdict : Verdict) : Status :=
  if verdict.error.isSome then .runtimeError else .completed

def completed (verdict : Verdict) : Bool := verdict.error.isNone

end Verdict

/-- A break at an instruction becomes a stop that names the place. -/
def Break.toStop (pc : Int) (step : Nat) (location : Option Location) : Break → Stop
  | halt => .halt
  | fault cause => .fault ⟨cause, some pc, some step, location⟩
  | defect kind => .defect kind

/-- The instruction to come and its index; outside the program the run is over. -/
def Program.fetch (program : Program) (state : State) : Except Stop (Int × Instruction) :=
  match state.pc with
  | none => .error (.defect .missingTarget)
  | some pc =>
    if pc < 0 then .error .halt
    else match program.instructions[pc.toNat]? with
      | some instruction => .ok (pc, instruction)
      | none => .error .halt

namespace State

/-- The state that an instruction at an index leaves, and the stop that it came to if it was broken
off. -/
def attempt (config : Config) (pc : Int) (instruction : Instruction) (state : State) :
    State × Option Stop :=
  match (Action.perform config pc instruction).run state with
  | .ok _ left => (left, none)
  | .error reason left => (left, some (reason.toStop pc left.steps instruction.location))

theorem steps_attempt {config : Config} {pc : Int} {instruction : Instruction}
    {state after : State} (done : state.attempt config pc instruction = (after, none)) :
    after.steps = state.steps + 1 := by
  unfold attempt at done
  split at done
  · rename_i performed
    cases done
    exact Action.steps_perform _ _ performed
  · cases done

end State

end MailRoom
