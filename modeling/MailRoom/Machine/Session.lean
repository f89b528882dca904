import MailRoom.Observer.Audience
import MailRoom.Program.Mnemonics
import MailRoom.Trace.Log

/-! A run under observation: each step is logged, shown to the observers, carried out and checked
against the step limit. Main statement: `step_advances`, by which a run ends within its limit. A log
entry for a tile or a step count with more digits than are written is outside the model. -/
namespace MailRoom

structure Machine where
  program : Program
  config : Config
  /-- Whether the log shows the floor. -/
  verbose : Bool
  capacity : Option Nat

structure Session where
  state : State
  log : Log
  audience : Audience

/-- What an action leaves behind, and why it stopped short, if it did. -/
abbrev Progress := Session × Option Stop

def Progress.andThen (progress : Progress) (action : Session → Progress) : Progress :=
  match progress with
  | (session, none) => action session
  | stopped => stopped

def Floor.texts (floor : Floor) : List (Int × String) :=
  floor.snapshot.map fun (tile, value) => ((tile : Int), value.text)

namespace Machine

def session (machine : Machine) (audience : Audience) (state : State) : Session :=
  ⟨state, .empty machine.capacity, audience⟩

/-- What is logged before an instruction is carried out. -/
def entry (machine : Machine) (pc : Int) (instruction : Instruction) (state : State) : Entry where
  step := state.steps
  instruction := pc
  rule := instruction.opcode.name
  location := instruction.location
  statement := some <| match instruction.location with
    | some location =>
      if location.statement.isEmpty then instruction.describe else location.statement
    | none => instruction.describe
  hands := state.hands.map Value.text
  floor := if machine.verbose then some state.floor.texts else none

end Machine

namespace Session

def glimpse (session : Session) : Glimpse :=
  ⟨session.state.pc, session.state.steps, session.state.hands⟩

def attend (session : Session) (call : Audience → Audience × Option Stop) : Progress :=
  let (audience, stop) := call session.audience
  ({ session with audience }, stop)

def emit (session : Session) (event : Event) (occasion : Occasion) : Progress :=
  session.attend fun audience => audience.emit event occasion

def tick (session : Session) (pc : Int) (instruction : Instruction) : Progress :=
  session.attend fun audience => audience.tick <|
    .step session.state.steps pc instruction.opcode instruction.location

/-- A step over the limit is a fault, although the step itself has been carried out. -/
def checkLimit (machine : Machine) (pc : Int) (instruction : Instruction) (session : Session) :
    Progress :=
  if machine.config.stepLimit < session.state.steps then
    (session, some (.fault ⟨.stepLimit machine.config.stepLimit, some pc,
      some (session.state.steps - 1), instruction.location⟩))
  else (session, none)

/-- Carries an instruction out, up to where it is broken off. -/
def carryOut (machine : Machine) (pc : Int) (instruction : Instruction) (session : Session) :
    Progress :=
  let (state, stop) := session.state.attempt machine.config pc instruction
  ({ session with state }, stop)

def step (machine : Machine) (session : Session) : Progress :=
  match machine.program.fetch session.state with
  | .error stop => (session, some stop)
  | .ok (pc, instruction) =>
    let logged :=
      { session with log := session.log.record (machine.entry pc instruction session.state) }
    logged.emit .beforeInstruction (.instruction logged.glimpse instruction)
      |>.andThen (carryOut machine pc instruction)
      |>.andThen (fun done =>
        done.emit .afterInstruction (.instruction done.glimpse instruction))
      |>.andThen (fun done => done.tick pc instruction)
      |>.andThen (checkLimit machine pc instruction)

private theorem of_andThen {progress : Progress} {action : Session → Progress} {last : Session}
    (finished : progress.andThen action = (last, none)) :
    ∃ between, progress = (between, none) ∧ action between = (last, none) := by
  obtain ⟨between, stop⟩ := progress
  cases stop with
  | none => exact ⟨between, rfl, finished⟩
  | some stop => simp [Progress.andThen] at finished

private theorem state_attend {session next : Session} {call : Audience → Audience × Option Stop}
    (finished : session.attend call = (next, none)) : next.state = session.state := by
  simp only [attend, Prod.mk.injEq] at finished
  rw [← finished.1]

private theorem steps_carryOut {machine : Machine} {pc : Int} {instruction : Instruction}
    {session next : Session} (finished : session.carryOut machine pc instruction = (next, none)) :
    next.state.steps = session.state.steps + 1 := by
  simp only [carryOut, Prod.mk.injEq] at finished
  obtain ⟨rfl, done⟩ := finished
  exact State.steps_attempt (Prod.ext rfl done)

theorem step_advances {machine : Machine} {session next : Session}
    (finished : session.step machine = (next, none)) :
    next.state.steps = session.state.steps + 1 ∧
      next.state.steps ≤ machine.config.stepLimit := by
  unfold step at finished
  split at finished
  · simp at finished
  · obtain ⟨ticked, finished, checked⟩ := of_andThen finished
    obtain ⟨shown, finished, ticked_from⟩ := of_andThen finished
    obtain ⟨done, finished, shown_from⟩ := of_andThen finished
    obtain ⟨announced, finished, done_from⟩ := of_andThen finished
    have kept := state_attend finished
    have shown_state := state_attend shown_from
    have ticked_state := state_attend ticked_from
    have counted := steps_carryOut done_from
    unfold checkLimit at checked
    split at checked
    · simp at checked
    · cases checked
      simp only [kept] at counted
      simp only [ticked_state, shown_state] at *
      omega

end Session

end MailRoom
