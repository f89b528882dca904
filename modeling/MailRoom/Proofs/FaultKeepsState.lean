import MailRoom.Proofs.Turn

/-! What is left of a state when a step does not come about. Main statement:
`Session.fault_keeps_state`, by which a halt or a fault other than the step limit leaves the state
as it was, so that a finished run that is taken up again ends at once and as before. -/
namespace MailRoom

/-- The stops that come before anything has changed: all but the step limit, which is checked
behind the step. -/
inductive Stop.Early : Stop → Prop where
  | halt : Early .halt
  | fault {incident : Incident} (other : incident.fault.kind ≠ "StepLimitExceeded") :
      Early (.fault incident)

def Verdict.Early (verdict : Verdict) : Prop :=
  ∀ incident, verdict.error = some incident → incident.fault.kind ≠ "StepLimitExceeded"

theorem Stop.not_early_of_stepLimit {limit : Nat} {place step : Option Int}
    {location : Option Location} : ¬Stop.Early (.fault ⟨.stepLimit limit, place, step, location⟩) := by
  intro early
  cases early with
  | fault other => exact other rfl

theorem Stop.early_of_verdict {reason : Stop} {steps : Nat} {verdict : Verdict}
    (judged : reason.verdict steps = .ok verdict) (early : verdict.Early) : reason.Early := by
  cases reason with
  | halt => exact .halt
  | fault incident =>
    cases judged
    exact .fault (early incident rfl)
  | defect => cases judged
  | refused => cases judged

namespace Machine

/-- An early stop leaves a state as it was. -/
theorem turn_early {machine : Machine} {state after : State} {reason : Stop}
    (stopped : machine.turn state = (after, some reason)) (early : reason.Early) :
    after = state := by
  rcases turn_eq_some stopped with ⟨_, same⟩ | ⟨_, _, _, rfl⟩
  · exact same
  · exact absurd early Stop.not_early_of_stepLimit

/-- All that a step can add to the log is one entry. -/
theorem noted_eq (machine : Machine) (session : Session) :
    machine.noted session = session.log ∨ ∃ entry, machine.noted session = session.log.record entry := by
  unfold noted
  cases machine.program.fetch session.state with
  | error reason => exact .inl rfl
  | ok found => exact .inr ⟨_, rfl⟩

end Machine

namespace Session

variable {machine : Machine} {session last : Session} {verdict : Verdict}

/-- A session that nobody watches and that a turn stops as it stands. -/
structure Standing (machine : Machine) (session : Session) (reason : Stop) : Prop where
  silent : session.audience.Silent
  stopped : machine.turn session.state = (session.state, some reason)

theorem Standing.execute {reason : Stop} (standing : session.Standing machine reason) :
    session.execute machine =
      ((session.step machine).1, reason.verdict session.state.steps) := by
  have stepped : session.step machine = _ := step_silent standing.silent
  rw [standing.stopped] at stepped
  have course : Run machine session [session] _ reason := .stop stepped
  rw [execute_silent course standing.silent, stepped]

theorem Standing.state_step {reason : Stop} (standing : session.Standing machine reason) :
    (session.step machine).1.state = session.state := by
  rw [state_step_silent standing.silent, standing.stopped]

theorem Standing.step {reason : Stop} (standing : session.Standing machine reason) :
    (session.step machine).1.Standing machine reason where
  silent := by
    rw [audience_step_silent standing.silent]
    exact standing.silent
  stopped := by
    rw [standing.state_step]
    exact standing.stopped

/-- A run that ends early ends where the same stop would come again. -/
theorem standing_of_execute (silent : session.audience.Silent)
    (finished : session.execute machine = (last, .ok verdict)) (early : verdict.Early) :
    ∃ reason, last.Standing machine reason ∧ reason.verdict last.state.steps = .ok verdict := by
  obtain ⟨passed, course⟩ := exists_run machine session
  rw [execute_silent course silent] at finished
  generalize (session.run machine).1 = reached at course finished
  generalize (session.run machine).2 = reason at course finished
  simp only [Prod.mk.injEq] at finished
  obtain ⟨rfl, judged⟩ := finished
  obtain ⟨quiet, unwatched⟩ := course.silent silent
  obtain ⟨visited, member, stopped⟩ := course.last_step
  obtain ⟨broken, _, _⟩ := step_eq_silent (unwatched visited member) stopped
  have same := Machine.turn_early broken (Stop.early_of_verdict judged early)
  exact ⟨reason, ⟨quiet, same ▸ broken⟩, judged⟩

/-- The session after a number of further runs, each taken up where the one before ended. -/
def rerun (machine : Machine) (session : Session) : Nat → Session
  | 0 => session
  | count + 1 => ((session.rerun machine count).execute machine).1

theorem Standing.rerun {reason : Stop} (standing : session.Standing machine reason) (count : Nat) :
    (session.rerun machine count).Standing machine reason ∧
      (session.rerun machine count).state = session.state := by
  induction count with
  | zero => exact ⟨standing, rfl⟩
  | succ count ih =>
    obtain ⟨before, same⟩ := ih
    simp only [Session.rerun, before.execute]
    exact ⟨before.step, before.state_step.trans same⟩

/-- Whatever stops a step but the step limit leaves the whole state as it was, and at most one more
entry in the log. Hence a run that came to such an end can be taken up again any number of times:
it comes to the same verdict each time, and its state stays as it is. -/
theorem fault_keeps_state (silent : session.audience.Silent) :
    (∀ after reason, session.step machine = (after, some reason) → reason.Early →
      after.state = session.state ∧ after.audience = session.audience ∧
        (after.log = session.log ∨ ∃ entry, after.log = session.log.record entry)) ∧
    ∀ last verdict, session.execute machine = (last, .ok verdict) → verdict.Early → ∀ count,
      (last.rerun machine count).state = last.state ∧
        ((last.rerun machine count).execute machine).2 = .ok verdict := by
  constructor
  · intro after reason stopped early
    obtain ⟨broken, written, unheard⟩ := step_eq_silent silent stopped
    refine ⟨Machine.turn_early broken early, unheard, ?_⟩
    rw [written]
    exact machine.noted_eq session
  · intro last verdict finished early count
    obtain ⟨reason, standing, judged⟩ := standing_of_execute silent finished early
    obtain ⟨again, same⟩ := standing.rerun count
    refine ⟨same, ?_⟩
    rw [again.execute, same]
    exact judged

/-- A program that passes a value on and then counts up a tile that was never written. -/
private def tripping : Program :=
  ⟨[⟨.inbox, none, none, none, none⟩, ⟨.outbox, none, none, none, none⟩,
    ⟨.bumpUp, some ⟨0, false⟩, none, none, none⟩], .empty, [], [], none⟩

/-- The fault on the empty tile comes again with each further run, and what has been passed on stays
passed on. -/
theorem fault_keeps_state_tripping :
    ∃ (machine : Machine) (session last : Session) (verdict : Verdict),
      machine.program = tripping ∧ session.audience.Silent ∧
      session.execute machine = (last, .ok verdict) ∧
      verdict = ⟨2, some ⟨.unwrittenTile 0, some 2, some 2, none⟩⟩ ∧ verdict.Early ∧
      last.state.outbox = [.letter 'x'] ∧ (last.rerun machine 3).state = last.state ∧
      ((last.rerun machine 3).execute machine).2 = .ok verdict := by
  let machine : Machine := ⟨tripping, ⟨1, 999, 10, by decide, by decide⟩, false, none⟩
  let session : Session := machine.session .empty (.initial ⟨#[none]⟩ [.letter 'x'])
  have silent : session.audience.Silent := Audience.silent_empty
  have judged : (session.execute machine).2.toOption =
      some ⟨2, some ⟨.unwrittenTile 0, some 2, some 2, none⟩⟩ := by decide +kernel
  have finished : session.execute machine = ((session.execute machine).1,
      .ok ⟨2, some ⟨.unwrittenTile 0, some 2, some 2, none⟩⟩) :=
    Prod.ext rfl (toOption_eq_some.mp judged)
  have early : Verdict.Early ⟨2, some ⟨.unwrittenTile 0, some 2, some 2, none⟩⟩ := by
    rintro incident ⟨⟩
    decide
  have passedOn : (session.execute machine).1.state.outbox = [.letter 'x'] := by decide +kernel
  obtain ⟨same, again⟩ := (@fault_keeps_state machine session silent).2 _ _ finished early 3
  exact ⟨machine, session, _, _, rfl, silent, finished, rfl, early, passedOn, same, again⟩

end Session

end MailRoom
