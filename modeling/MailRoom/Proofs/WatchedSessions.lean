import MailRoom.Proofs.StepEffects

/-! Sessions that observers watch. Main statements: `Session.step_cases`, by which a step is what it
would be with nobody watching unless somebody raises something at it, `Session.Run.advances`, by
which a run passes through the states of the program left to itself and no others, and
`Session.execute_of_undisturbed`, by which an execution comes to the verdict on its run unless
somebody raises something in its course. -/
namespace MailRoom

theorem Progress.andThen_assoc (progress : Progress) (first second : Session → Progress) :
    (progress.andThen first).andThen second =
      progress.andThen fun session => (first session).andThen second := by
  obtain ⟨session, stop⟩ := progress
  cases stop <;> rfl

namespace Machine

variable {machine : Machine} {state next : State}

theorem turn_of_fetched {pc : Int} {instruction : Instruction}
    (found : machine.program.fetch state = .ok (pc, instruction)) :
    machine.turn state = machine.turnAt pc instruction state := by
  simp only [turn, found]

/-- A step of the program is taken even where it is one too many. -/
theorem turn_of_next (moved : state.next machine.config machine.program = .ok next) :
    (machine.turn state).1 = next := by
  by_cases within : next.steps ≤ machine.config.stepLimit
  · rw [turn_of_within moved within]
  · obtain ⟨_, _, _, turned⟩ := turn_of_beyond moved (Nat.lt_of_not_le within)
    rw [turned]

theorem turn_state (machine : Machine) (state : State) :
    (machine.turn state).1 = state ∨
      state.next machine.config machine.program = .ok (machine.turn state).1 := by
  cases moved : state.next machine.config machine.program with
  | error reason => exact .inl (congrArg Prod.fst (turn_of_error moved))
  | ok next => exact .inr (congrArg Except.ok (turn_of_next moved).symm)

end Machine

theorem State.advance_next {config : Config} {program : Program} {state reached next : State}
    {count : Nat} (advanced : state.advance config program count = .ok reached)
    (moved : reached.next config program = .ok next) :
    state.advance config program (count + 1) = .ok next := by
  induction count generalizing state with
  | zero =>
    cases advanced
    exact advance_succ_eq_ok.mpr ⟨next, moved, rfl⟩
  | succ count ih =>
    obtain ⟨between, started, rest⟩ := advance_succ_eq_ok.mp advanced
    exact advance_succ_eq_ok.mpr ⟨between, started, ih rest⟩

namespace Session

variable {machine : Machine} {session : Session}

/-- An instruction to come is noted in the log and told to its observers. -/
def announce (machine : Machine) (pc : Int) (instruction : Instruction) (session : Session) :
    Progress :=
  let logged :=
    { session with log := session.log.record (machine.entry pc instruction session.state) }
  logged.emit .beforeInstruction (.instruction logged.glimpse instruction)

/-- An instruction that has been carried out is told to its observers and to those of every n-th
step. -/
def acknowledge (pc : Int) (instruction : Instruction) (session : Session) : Progress :=
  (session.emit .afterInstruction (.instruction session.glimpse instruction)).andThen
    fun told => told.tick pc instruction

@[simp] theorem state_acknowledge (pc : Int) (instruction : Instruction) :
    (session.acknowledge pc instruction).1.state = session.state := by
  unfold acknowledge
  cases told : session.emit .afterInstruction (.instruction session.glimpse instruction) with
  | mk next stop =>
    have same : next.state = session.state := congrArg (·.1.state) told.symm
    cases stop <;> exact same

/-- Somebody raises something at a step: before the instruction, or behind it. -/
inductive RaisesAtStep (machine : Machine) (session : Session) : Prop where
  | before {pc : Int} {instruction : Instruction} {raised : Stop}
      (found : machine.program.fetch session.state = .ok (pc, instruction))
      (objects : (session.announce machine pc instruction).2 = some raised)
  | behind {pc : Int} {instruction : Instruction} {done : Session} {raised : Stop}
      (found : machine.program.fetch session.state = .ok (pc, instruction))
      (carried : (session.announce machine pc instruction).andThen
        (carryOut machine pc instruction) = (done, none))
      (objects : (done.acknowledge pc instruction).2 = some raised)

section Fetched

variable {pc : Int} {instruction : Instruction} {told : Session}
  (found : machine.program.fetch session.state = .ok (pc, instruction))

include found

/-- A step behind its announcement: carried out, acknowledged, checked against the limit. -/
theorem step_of_fetched :
    session.step machine =
      (((session.announce machine pc instruction).andThen (carryOut machine pc instruction)).andThen
        (acknowledge pc instruction)).andThen (checkLimit machine pc instruction) := by
  simp only [step, found]
  rw [Progress.andThen_assoc _ (fun done => done.emit _ _)]
  rfl

theorem step_of_objection {raised : Stop}
    (announced : session.announce machine pc instruction = (told, some raised)) :
    session.step machine = (told, some raised) := by
  rw [step_of_fetched found, announced]
  rfl

theorem step_of_error {reason : Stop}
    (announced : session.announce machine pc instruction = (told, none))
    (failed : session.state.carryOut machine.config pc instruction = .error reason) :
    session.step machine = (told, some reason) := by
  have told_state : told.state = session.state := congrArg (·.1.state) announced.symm
  rw [step_of_fetched found, announced]
  simp only [Progress.andThen, carryOut, told_state, State.attempt_of_error failed]
  rw [← told_state]

theorem step_of_done {next : State}
    (announced : session.announce machine pc instruction = (told, none))
    (carried : session.state.carryOut machine.config pc instruction = .ok next) :
    (session.announce machine pc instruction).andThen (carryOut machine pc instruction) =
        ({ told with state := next }, none) ∧
      session.step machine = (acknowledge pc instruction { told with state := next }).andThen
        (checkLimit machine pc instruction) := by
  have told_state : told.state = session.state := congrArg (·.1.state) announced.symm
  have done : (session.announce machine pc instruction).andThen (carryOut machine pc instruction) =
      ({ told with state := next }, none) := by
    simp only [announced, Progress.andThen, carryOut, told_state, State.attempt_of_ok carried]
  refine ⟨done, ?_⟩
  rw [step_of_fetched found, done]
  rfl

end Fetched

/-- A step is what it would be with nobody watching, unless somebody raises something at it. Then it
is stopped, and its state is the one before the instruction or the one behind it. -/
theorem step_cases (machine : Machine) (session : Session) :
    ((session.step machine).1.state, (session.step machine).2) = machine.turn session.state ∨
      session.RaisesAtStep machine ∧ (session.step machine).2.isSome ∧
        ((session.step machine).1.state = session.state ∨
          session.state.next machine.config machine.program =
            .ok (session.step machine).1.state) := by
  -- The cases are those of the step: announced, carried out, acknowledged, checked.
  cases found : machine.program.fetch session.state with
  | error reason =>
    left
    simp only [step, Machine.turn, found]
  | ok place =>
    obtain ⟨pc, instruction⟩ := place
    rw [Machine.turn_of_fetched found]
    cases announced : session.announce machine pc instruction with
    | mk told stop =>
      have told_state : told.state = session.state := congrArg (·.1.state) announced.symm
      cases stop with
      | some raised =>
        rw [step_of_objection found announced]
        exact .inr ⟨.before found (congrArg Prod.snd announced), rfl, .inl told_state⟩
      | none =>
        cases carried : session.state.carryOut machine.config pc instruction with
        | error reason =>
          rw [step_of_error found announced carried]
          exact .inl (by simp only [told_state, Machine.turnAt, carried])
        | ok next =>
          obtain ⟨done, stepped⟩ := step_of_done found announced carried
          cases acknowledged : acknowledge pc instruction { told with state := next } with
          | mk shown stop =>
            rw [stepped, acknowledged]
            have shown_state : shown.state = next :=
              (congrArg (·.1.state) acknowledged.symm).trans (state_acknowledge pc instruction)
            cases stop with
            | some raised =>
              refine .inr ⟨.behind found done (congrArg Prod.snd acknowledged), rfl, .inr ?_⟩
              exact (State.next_of_fetched found).trans (carried.trans (congrArg _ shown_state.symm))
            | none =>
              left
              simp only [Progress.andThen, checkLimit, shown_state, Machine.turnAt, carried]
              split <;> simp only [shown_state]

theorem step_state (machine : Machine) (session : Session) :
    (session.step machine).1.state = session.state ∨
      session.state.next machine.config machine.program = .ok (session.step machine).1.state := by
  rcases step_cases machine session with quiet | ⟨_, _, either⟩
  · have same : (session.step machine).1.state = (machine.turn session.state).1 :=
      congrArg Prod.fst quiet
    rw [same]
    exact Machine.turn_state machine session.state
  · exact either

namespace Run

variable {first last : Session} {passed : List Session} {reason : Stop}

/-- A run passes through the states of the program left to itself, whoever watches. -/
theorem advances (course : Run machine first passed last reason) :
    ∀ reached ∈ passed ++ [last], ∃ count,
      first.state.advance machine.config machine.program count = .ok reached.state := by
  obtain ⟨atEnd, before⟩ := course.keeps
    (fun session => ∃ count,
      first.state.advance machine.config machine.program count = .ok session.state)
    ⟨0, rfl⟩ fun session ⟨count, advanced⟩ => by
      rcases step_state machine session with same | moved
      · exact ⟨count, same ▸ advanced⟩
      · exact ⟨count + 1, State.advance_next advanced moved⟩
  intro reached member
  rcases List.mem_append.mp member with earlier | latest
  · exact before reached earlier
  · exact List.mem_singleton.mp latest ▸ atEnd

/-- What is in the outbox at some time in a run is the beginning of what is there at its end. -/
theorem outbox_grows (course : Run machine first passed last reason)
    (formed : machine.program.Formed) :
    ∀ reached ∈ passed ++ [last], reached.state.outbox <+: last.state.outbox := by
  have grows (session : Session) :
      session.state.outbox <+: (session.step machine).1.state.outbox := by
    rcases step_state machine session with same | moved
    · simp only [same, List.prefix_refl]
    · exact State.outbox_next formed moved
  induction course with
  | @stop first last _ stopped =>
    have onward := grows first
    rw [stopped] at onward
    intro reached member
    rcases List.mem_cons.mp member with rfl | latest
    · exact onward
    · cases List.mem_singleton.mp latest
      exact List.prefix_refl _
  | @step first next last passed _ moved rest ih =>
    have onward := grows first
    rw [moved] at onward
    intro reached member
    rcases List.mem_cons.mp member with rfl | later
    · exact onward.trans (ih next (List.mem_append_left _ rest.first_mem))
    · exact ih reached later

end Run

variable {first last : Session} {passed : List Session} {reason : Stop}

def opened (first : Session) : Session :=
  (first.emit .programStart (.start first.glimpse)).1

def informed (last : Session) (incident : Incident) : Session :=
  (last.emit .onError (.error last.glimpse incident)).1

/-- Somebody raises something in the course of an execution. -/
inductive Raises (machine : Machine) (first : Session) : Prop where
  | atStart {raised : Stop}
      (objects : (first.emit .programStart (.start first.glimpse)).2 = some raised)
  | atStep {passed : List Session} {last visited : Session} {reason : Stop}
      (course : Run machine first.opened passed last reason) (member : visited ∈ passed)
      (objects : visited.RaisesAtStep machine)
  | onError {passed : List Session} {last : Session} {incident : Incident} {raised : Stop}
      (course : Run machine first.opened passed last (.fault incident))
      (objects : (last.emit .onError (.error last.glimpse incident)).2 = some raised)
  | behindError {passed : List Session} {last : Session} {incident : Incident} {raised : Stop}
      (course : Run machine first.opened passed last (.fault incident))
      (objects : ((last.informed incident).finish (some incident)).2 = .error raised)
  | behindHalt {passed : List Session} {last : Session} {raised : Stop}
      (course : Run machine first.opened passed last .halt)
      (objects : (last.finish none).2 = .error raised)

/-- Telling of the end changes no state, and only an observer keeps the verdict back. -/
theorem finish_cases (session : Session) (error : Option Incident) :
    (session.finish error).1.state = session.state ∧
      ((session.finish error).2 = .ok ⟨session.state.steps, error⟩ ∨
        ∃ raised, (session.finish error).2 = .error raised) := by
  unfold finish
  simp only
  split
  · rename_i stop told
    exact ⟨congrArg (·.1.state) told.symm, .inr ⟨stop, rfl⟩⟩
  · rename_i told
    exact ⟨congrArg (·.1.state) told.symm, .inl rfl⟩

/-- An execution ends in the state in which its run does, unless it was not even opened. -/
theorem execute_state (course : Run machine first.opened passed last reason) :
    (first.execute machine).1.state = last.state ∨
      (first.execute machine).1.state = first.state := by
  unfold execute
  cases told : first.emit .programStart (.start first.glimpse) with
  | mk opened raised =>
    have same : first.opened = opened := congrArg Prod.fst told
    rw [same] at course
    cases raised with
    | some raised => exact .inr (congrArg (·.1.state) told.symm)
    | none =>
      left
      simp only [course.run_eq]
      cases reason with
      | halt => exact (finish_cases last none).1
      | fault incident =>
        cases informed : last.emit .onError (.error last.glimpse incident) with
        | mk told raised =>
          have unmoved : told.state = last.state := congrArg (·.1.state) informed.symm
          simp only [informed]
          cases raised with
          | some raised => exact unmoved
          | none => exact (finish_cases told (some incident)).1.trans unmoved
      | defect => rfl
      | refused => rfl

/-- An execution in which nobody raises anything comes to the verdict on its run. -/
theorem execute_of_undisturbed (undisturbed : ¬first.Raises machine)
    (course : Run machine first.opened passed last reason) :
    (first.execute machine).1.state = last.state ∧
      (first.execute machine).2 = reason.verdict last.state.steps := by
  have opens : (first.emit .programStart (.start first.glimpse)).2 = none :=
    Option.eq_none_iff_forall_ne_some.mpr fun raised objects => undisturbed (.atStart objects)
  have told : first.emit .programStart (.start first.glimpse) = (first.opened, none) :=
    Prod.ext rfl opens
  simp only [execute, told, course.run_eq]
  cases reason with
  | halt =>
    obtain ⟨same, judged | ⟨raised, objects⟩⟩ := finish_cases last none
    · exact ⟨same, judged⟩
    · exact absurd (.behindHalt course objects) undisturbed
  | fault incident =>
    have heard : (last.emit .onError (.error last.glimpse incident)).2 = none :=
      Option.eq_none_iff_forall_ne_some.mpr fun raised objects =>
        undisturbed (.onError course objects)
    have informed : last.emit .onError (.error last.glimpse incident) =
        (last.informed incident, none) := Prod.ext rfl heard
    simp only [informed]
    obtain ⟨same, judged | ⟨raised, objects⟩⟩ := finish_cases (last.informed incident) (some incident)
    · exact ⟨same, judged⟩
    · exact absurd (.behindError course objects) undisturbed
  | defect => exact ⟨rfl, rfl⟩
  | refused => exact ⟨rfl, rfl⟩

end Session

end MailRoom
