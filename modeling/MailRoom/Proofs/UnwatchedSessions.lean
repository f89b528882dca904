import MailRoom.Proofs.Atomic
import MailRoom.Proofs.Run

/-! Sessions that nobody watches. Main statements: `Session.step_silent`, a step as what it does to
state and log, and `Session.execute_silent`, the verdict as what the run was stopped by. -/
namespace MailRoom

/-- Nobody waits for anything. -/
def Audience.Silent (audience : Audience) : Prop :=
  ∀ slot, audience.registry.get slot = []

namespace Audience

theorem silent_empty : Audience.empty.Silent := by
  intro slot
  cases slot with
  | event event => cases event <;> rfl
  | rules => rfl

theorem Silent.walk {audience : Audience} (silent : audience.Silent) (slot : Slot)
    (occasion : Occasion) (position : Nat) :
    audience.walk slot occasion position = (audience, none) := by
  rw [Audience.walk]
  split
  · rfl
  · rename_i handler found
    simp [silent slot] at found

end Audience

/-- The verdict on a run that was stopped after so many steps, where there is one. -/
def Stop.verdict (steps : Nat) : Stop → Except Stop Verdict
  | halt => .ok ⟨steps, none⟩
  | fault incident => .ok ⟨steps, some incident⟩
  | reason => .error reason

namespace Machine

/-- What an instruction at an index does to a state, the step limit checked at the end. -/
def turnAt (machine : Machine) (pc : Int) (instruction : Instruction) (state : State) :
    State × Option Stop :=
  match state.carryOut machine.config pc instruction with
  | .error reason => (state, some reason)
  | .ok next =>
    if machine.config.stepLimit < next.steps then
      (next, some (.fault ⟨.stepLimit machine.config.stepLimit, some pc, some (next.steps - 1),
        instruction.location⟩))
    else (next, none)

/-- What a step does to a state that nobody watches. -/
def turn (machine : Machine) (state : State) : State × Option Stop :=
  match machine.program.fetch state with
  | .error reason => (state, some reason)
  | .ok (pc, instruction) => machine.turnAt pc instruction state

def noted (machine : Machine) (session : Session) : Log :=
  match machine.program.fetch session.state with
  | .error _ => session.log
  | .ok (pc, instruction) => session.log.record (machine.entry pc instruction session.state)

end Machine

namespace Session

variable {machine : Machine} {session last : Session}

/-- A step that nobody watches changes the state, notes it in the log, and nothing else. -/
theorem step_silent (silent : session.audience.Silent) :
    session.step machine =
      (⟨(machine.turn session.state).1, machine.noted session, session.audience⟩,
        (machine.turn session.state).2) := by
  have quiet (state : State) (log : Log) (call : Audience → Audience × Option Stop)
      (idle : call session.audience = (session.audience, none)) :
      attend ⟨state, log, session.audience⟩ call = (⟨state, log, session.audience⟩, none) := by
    simp [attend, idle]
  unfold step Machine.turn Machine.noted
  cases machine.program.fetch session.state with
  | error reason => rfl
  | ok found =>
    obtain ⟨pc, instruction⟩ := found
    simp only [emit, tick, Audience.emit, Audience.tick, Progress.andThen, quiet, silent.walk,
      carryOut, Machine.turnAt]
    cases carried : session.state.carryOut machine.config pc instruction with
    | error reason => rw [State.attempt_of_error carried]
    | ok next =>
      simp only [State.attempt_of_ok carried, quiet, silent.walk, checkLimit]
      split <;> rfl

theorem step_eq_silent {reason : Option Stop} (silent : session.audience.Silent)
    (stepped : session.step machine = (last, reason)) :
    machine.turn session.state = (last.state, reason) ∧ last.log = machine.noted session ∧
      last.audience = session.audience := by
  rw [step_silent silent] at stepped
  cases stepped
  exact ⟨rfl, rfl, rfl⟩

theorem state_step_silent (silent : session.audience.Silent) :
    (session.step machine).1.state = (machine.turn session.state).1 := by
  rw [step_silent silent]

theorem stop_step_silent (silent : session.audience.Silent) :
    (session.step machine).2 = (machine.turn session.state).2 := by
  rw [step_silent silent]

theorem audience_step_silent (silent : session.audience.Silent) :
    (session.step machine).1.audience = session.audience := by
  rw [step_silent silent]

theorem Run.silent {passed : List Session} {reason : Stop}
    (course : Run machine session passed last reason) (silent : session.audience.Silent) :
    last.audience.Silent ∧ ∀ visited ∈ passed, visited.audience.Silent :=
  course.keeps (fun session => session.audience.Silent) silent fun session silent => by
    rw [audience_step_silent silent]
    exact silent

/-- What a run that nobody watches amounts to: a halt or a fault is its verdict, and anything else
leaves it without one. -/
theorem execute_silent {passed : List Session} {reason : Stop}
    (course : Run machine session passed last reason) (silent : session.audience.Silent) :
    session.execute machine = (last, reason.verdict last.state.steps) := by
  have atEnd := (course.silent silent).1
  simp only [execute, emit, attend, Audience.emit, silent.walk, course.run_eq]
  cases reason with
  | halt => simp [finish, emit, attend, Audience.emit, atEnd.walk, Stop.verdict]
  | fault incident => simp [finish, emit, attend, Audience.emit, atEnd.walk, Stop.verdict]
  | defect => rfl
  | refused => rfl

end Session

end MailRoom
