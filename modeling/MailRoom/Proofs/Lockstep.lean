import MailRoom.Proofs.UnwatchedSessions

/-! Two runs side by side. Main statements: `Session.execute_in_step`, by which whole runs
correspond when their turns do, and `Session.Run.outlived`, by which a run goes as far as another
one does unless one of its steps is cut short. -/
namespace MailRoom

/-- Machines that go in step: from states that correspond, a turn of each leads to states that
correspond, and both turns are stopped, in ways that correspond, or neither is. -/
structure Machine.InStep (first second : Machine) (Same : State → State → Prop)
    (Alike : Stop → Stop → Prop) : Prop where
  states : ∀ {one other}, Same one other → Same (first.turn one).1 (second.turn other).1
  stops : ∀ {one other}, Same one other →
    Option.Rel Alike (first.turn one).2 (second.turn other).2

namespace Session

variable {first second : Machine} {Same : State → State → Prop} {Alike : Stop → Stop → Prop}
  {session other last : Session} {passed : List Session} {reason : Stop}

/-- A run that nobody watches is matched, turn by turn, by a run of a machine that goes in step. -/
theorem Run.in_step (course : Run first session passed last reason)
    (inStep : first.InStep second Same Alike) (silent : session.audience.Silent)
    (silent' : other.audience.Silent) (same : Same session.state other.state) :
    ∃ passed' last' reason', Run second other passed' last' reason' ∧
      Same last.state last'.state ∧ Alike reason reason' := by
  induction course generalizing other with
  | @stop session last reason stopped =>
    obtain ⟨turned, _, _⟩ := step_eq_silent silent stopped
    have states := inStep.states same
    have stops := inStep.stops same
    rw [turned] at states stops
    cases outcome : other.step second with
    | mk last' reason' =>
      obtain ⟨turned', _, _⟩ := step_eq_silent silent' outcome
      rw [turned'] at states stops
      cases stops with
      | some alike => exact ⟨[other], last', _, .stop outcome, states, alike⟩
  | @step session next last passed reason moved rest ih =>
    obtain ⟨turned, _, unheard⟩ := step_eq_silent silent moved
    have states := inStep.states same
    have stops := inStep.stops same
    rw [turned] at states stops
    cases outcome : other.step second with
    | mk next' reason' =>
      obtain ⟨turned', _, unheard'⟩ := step_eq_silent silent' outcome
      rw [turned'] at states stops
      cases stops with
      | none =>
        obtain ⟨passed', last', reason', course, ends, alike⟩ :=
          ih (unheard ▸ silent) (unheard' ▸ silent') states
        exact ⟨other :: passed', last', reason', .step outcome course, ends, alike⟩

/-- Machines that go in step come from states that correspond to states that correspond, and to the
verdicts on stops that do. -/
theorem execute_in_step (inStep : first.InStep second Same Alike) {one another : State}
    (same : Same one another) :
    ∃ last last' reason reason',
      (first.session .empty one).execute first = (last, reason.verdict last.state.steps) ∧
      (second.session .empty another).execute second =
        (last', reason'.verdict last'.state.steps) ∧
      Same last.state last'.state ∧ Alike reason reason' := by
  have silent : (first.session .empty one).audience.Silent := Audience.silent_empty
  have silent' : (second.session .empty another).audience.Silent := Audience.silent_empty
  obtain ⟨passed, course⟩ := exists_run first (first.session .empty one)
  obtain ⟨passed', last', reason', course', ends, alike⟩ :=
    course.in_step inStep silent silent' same
  exact ⟨_, last', _, reason', execute_silent course silent, execute_silent course' silent', ends,
    alike⟩

/-- A step beside one that may go further: they come to the same, or the first is cut short, and
then the other passes through where it stops, at its start or behind it. -/
def Abreast (machine longer : Machine) (Same : Session → Session → Prop) (Cut : Session → Prop)
    (session other : Session) : Prop :=
  Same (session.step machine).1 (other.step longer).1 ∧
      (other.step longer).2 = (session.step machine).2 ∨
    Cut session ∧ (session.step machine).2.isSome ∧
      (Same (session.step machine).1 other ∨ Same (session.step machine).1 (other.step longer).1)

/-- A run of which each step may be cut short ends where the other run passes through. Unless its
last step is cut short, it ends where the other one does and in the same way. -/
theorem Run.outlived {machine longer : Machine} {first : Session}
    {Same : Session → Session → Prop} {Cut : Session → Prop}
    (abreast : ∀ {session other}, Same session other → Abreast machine longer Same Cut session other)
    (course : Run machine first passed last reason) (same : Same first other) :
    ∃ passed' last' reason', Run longer other passed' last' reason' ∧
      (∃ reached ∈ passed' ++ [last'], Same last reached) ∧
      ((∃ visited ∈ passed, visited.step machine = (last, some reason) ∧ Cut visited) ∨
        Same last last' ∧ reason' = reason) := by
  induction course generalizing other with
  | @stop first last reason stopped =>
    obtain ⟨passed', onward⟩ := exists_run longer other
    rcases abreast same with ⟨ends, stops⟩ | ⟨cut, _, either⟩
    · rw [stopped] at ends stops
      have stepped : other.step longer = ((other.step longer).1, some reason) := Prod.ext rfl stops
      exact ⟨[other], _, reason, .stop stepped,
        ⟨_, List.mem_append_right _ (List.mem_singleton_self _), ends⟩, .inr ⟨ends, rfl⟩⟩
    · -- The other run goes on from where this one was cut short.
      refine ⟨passed', _, _, onward, ?_, .inl ⟨first, by simp, stopped, cut⟩⟩
      rw [stopped] at either
      rcases either with before | behind
      · exact ⟨other, List.mem_append_left _ onward.first_mem, before⟩
      · exact ⟨_, onward.step_mem, behind⟩
  | @step first next last passed reason moved rest ih =>
    rcases abreast same with ⟨follows, goes⟩ | ⟨_, stopped, _⟩
    · rw [moved] at follows goes
      have stepped : other.step longer = ((other.step longer).1, none) := Prod.ext rfl goes
      obtain ⟨passed', last', reason', onward, ⟨reached, member, there⟩, ends⟩ := ih follows
      refine ⟨_, last', reason', .step stepped onward,
        ⟨reached, List.mem_cons_of_mem _ member, there⟩, ?_⟩
      rcases ends with ⟨visited, earlier, cut⟩ | ends
      · exact .inl ⟨visited, List.mem_cons_of_mem _ earlier, cut⟩
      · exact .inr ends
    · rw [moved] at stopped
      cases stopped

end Session

end MailRoom
