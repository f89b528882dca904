import MailRoom.Machine.Run

/-! Runs as relations: the sessions that a run passes through, each at the start of a step, and the
session in which it is stopped. Main statements: `Session.Run.run_eq`, by which the relation is the
function, and `Session.Run.keeps`, by which a run keeps what its steps keep. -/
namespace MailRoom.Session

/-- A run from a first session, through sessions that each start a step, to the session that the
stopping step leaves behind. -/
inductive Run (machine : Machine) : Session → List Session → Session → Stop → Prop where
  | stop {first last : Session} {reason : Stop}
      (stopped : first.step machine = (last, some reason)) : Run machine first [first] last reason
  | step {first next last : Session} {passed : List Session} {reason : Stop}
      (moved : first.step machine = (next, none)) (rest : Run machine next passed last reason) :
      Run machine first (first :: passed) last reason

variable {machine : Machine} {first next last : Session} {passed : List Session} {reason : Stop}

theorem run_of_stop (stopped : first.step machine = (last, some reason)) :
    first.run machine = (last, reason) := by
  rw [run]
  split
  · rename_i found
    cases found.symm.trans stopped
    rfl
  · rename_i found
    cases found.symm.trans stopped

theorem run_of_step (moved : first.step machine = (next, none)) :
    first.run machine = next.run machine := by
  rw [run]
  split
  · rename_i found
    cases found.symm.trans moved
  · rename_i found
    cases found.symm.trans moved
    rfl

theorem Run.run_eq (course : Run machine first passed last reason) :
    first.run machine = (last, reason) := by
  induction course with
  | stop stopped => exact run_of_stop stopped
  | step moved rest ih => exact (run_of_step moved).trans ih

theorem Run.first_mem (course : Run machine first passed last reason) : first ∈ passed := by
  cases course <;> simp

theorem Run.step_mem (course : Run machine first passed last reason) :
    (first.step machine).1 ∈ passed ++ [last] := by
  cases course with
  | stop stopped => simp [stopped]
  | step moved rest =>
    rw [moved]
    simp [rest.first_mem]

/-- Every run comes to its end. -/
theorem exists_run (machine : Machine) (first : Session) :
    ∃ passed, Run machine first passed (first.run machine).1 (first.run machine).2 := by
  cases outcome : first.step machine with
  | mk next reason =>
    cases reason with
    | some reason =>
      rw [run_of_stop outcome]
      exact ⟨[first], .stop outcome⟩
    | none =>
      obtain ⟨passed, rest⟩ := exists_run machine next
      rw [run_of_step outcome]
      exact ⟨first :: passed, .step outcome rest⟩
termination_by machine.config.stepLimit + 1 - first.state.steps
decreasing_by
  have advanced := step_advances outcome
  omega

/-- A fresh run takes at most one step more than its limit allows. -/
theorem Run.length_le (course : Run machine first passed last reason)
    (early : first.state.steps ≤ machine.config.stepLimit) :
    first.state.steps + passed.length ≤ machine.config.stepLimit + 1 := by
  induction course with
  | stop stopped => simp only [List.length_singleton]; omega
  | step moved rest ih =>
    obtain ⟨counted, within⟩ := step_advances moved
    have bound := ih within
    simp only [List.length_cons]
    omega

/-- What every step keeps holds all along a run. -/
theorem Run.keeps (Good : Session → Prop) (course : Run machine first passed last reason)
    (start : Good first) (kept : ∀ session, Good session → Good (session.step machine).1) :
    Good last ∧ ∀ session ∈ passed, Good session := by
  induction course with
  | @stop first last _ stopped =>
    have after := kept first start
    rw [stopped] at after
    exact ⟨after, by simpa using start⟩
  | @step first next last passed _ moved rest ih =>
    have after := kept first start
    rw [moved] at after
    obtain ⟨atEnd, before⟩ := ih after
    refine ⟨atEnd, ?_⟩
    intro session member
    rcases List.mem_cons.mp member with same | earlier
    · exact same ▸ start
    · exact before session earlier

theorem Run.last_step (course : Run machine first passed last reason) :
    ∃ session ∈ passed, session.step machine = (last, some reason) := by
  induction course with
  | stop stopped => exact ⟨_, by simp, stopped⟩
  | step moved rest ih =>
    obtain ⟨session, member, stopped⟩ := ih
    exact ⟨session, List.mem_cons_of_mem _ member, stopped⟩

end MailRoom.Session
