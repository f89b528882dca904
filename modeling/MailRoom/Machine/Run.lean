import MailRoom.Machine.Session

/-! Whole runs. A run steps until something stops it; halts and faults make its verdict, anything
else leaves it without one. -/
namespace MailRoom.Session

/-- Steps until one of them stops. The step limit bounds how often. -/
def run (machine : Machine) (session : Session) : Session × Stop :=
  match _ : session.step machine with
  | (last, some stop) => (last, stop)
  | (next, none) => run machine next
termination_by machine.config.stepLimit + 1 - session.state.steps
decreasing_by
  have advanced := step_advances ‹_›
  omega

def finish (session : Session) (error : Option Incident) : Session × Except Stop Verdict :=
  let verdict : Verdict := ⟨session.state.steps, error⟩
  match session.emit .programEnd (.finish session.glimpse verdict.status) with
  | (last, some stop) => (last, .error stop)
  | (last, none) => (last, .ok verdict)

/-- A whole run from the session's state, with its verdict unless an observer or a defect of the
program prevents one. -/
def execute (machine : Machine) (session : Session) : Session × Except Stop Verdict :=
  match session.emit .programStart (.start session.glimpse) with
  | (last, some stop) => (last, .error stop)
  | (started, none) =>
    match started.run machine with
    | (last, .halt) => last.finish none
    | (last, .fault incident) =>
      match last.emit .onError (.error last.glimpse incident) with
      | (told, some stop) => (told, .error stop)
      | (told, none) => told.finish (some incident)
    | (last, stop) => (last, .error stop)

end MailRoom.Session
