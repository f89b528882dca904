import MailRoom.Machine.Stop
import MailRoom.Proofs.Outcome

/-! Instructions take effect as a whole or not at all. Main statements: `Action.atomic_perform`, by
which an instruction that is broken off, at whatever point, has changed nothing yet, and
`State.attempt_of_error`, by which the stop leaves the state as it was. -/
namespace MailRoom

namespace Action

/-- What an action comes to, together with the state it leaves at its end. -/
def outcome (action : Action α) (state : State) : Except Break (α × State) :=
  match action.run state with
  | .ok value left => .ok (value, left)
  | .error reason _ => .error reason

section Outcome

variable (state : State)

theorem outcome_pure (value : α) : (pure value : Action α).outcome state = pure (value, state) := rfl

theorem outcome_bind (action : Action α) (rest : α → Action β) :
    (action >>= rest).outcome state =
      action.outcome state >>= fun done => (rest done.1).outcome done.2 := by
  simp only [outcome, EStateM.run, bind, EStateM.bind]
  cases action state <;> rfl

theorem outcome_ask (question : State → Except Break α) (rest : α → Action β) :
    (ask question >>= rest).outcome state =
      question state >>= fun answer => (rest answer).outcome state := by
  rw [outcome_bind]
  cases asked : question state <;> simp only [outcome, ask, EStateM.run, asked] <;> rfl

theorem outcome_modify (change : State → State) (rest : Unit → Action β) :
    (modify change >>= rest).outcome state = (rest ()).outcome (change state) := rfl

theorem outcome_take (value : Value) (rest : Unit → Action β) :
    (take value >>= rest).outcome state = (rest ()).outcome { state with hands := some value } := rfl

theorem outcome_operandTile (instruction : Instruction) (rest : Int → Action β) :
    (operandTile instruction >>= rest).outcome state =
      instruction.operandTile state.floor >>= fun tile => (rest tile.val).outcome state := by
  rw [operandTile, outcome_ask]
  cases instruction.operandTile state.floor <;> rfl

theorem outcome_readTile (tile : Fin state.floor.size) (rest : Value → Action β) :
    (readTile tile.val >>= rest).outcome state =
      Break.ofFault (state.floor.readAt tile) >>= fun value => (rest value).outcome state := by
  rw [readTile, outcome_ask, Floor.read_val]

theorem outcome_writeTile (tile : Fin state.floor.size) (value : Value) (rest : Unit → Action β) :
    (writeTile tile.val value >>= rest).outcome state =
      (rest ()).outcome { state with floor := state.floor.set tile value } := by
  rw [writeTile, bind_assoc, outcome_ask, Floor.write_val]
  rfl

theorem outcome_takeFromInbox : takeFromInbox.outcome state = do
    let value ← state.requireInbox
    return (false, { state with hands := some value, cursor := state.cursor + 1 }) := by
  simp only [takeFromInbox, outcome_ask, outcome_take, outcome_modify, outcome_pure]

theorem outcome_putInOutbox : putInOutbox.outcome state = do
    let value ← state.requireHands .outbox
    return (false, { state with outbox := state.outbox ++ [value] }) := by
  simp only [putInOutbox, outcome_ask, outcome_modify, outcome_pure]

theorem outcome_copyFrom (instruction : Instruction) :
    (copyFrom instruction).outcome state = do
      let tile ← instruction.operandTile state.floor
      let value ← Break.ofFault (state.floor.readAt tile)
      return (false, { state with hands := some value }) := by
  simp only [copyFrom, outcome_operandTile, outcome_readTile, outcome_take, outcome_pure]

theorem outcome_copyTo (instruction : Instruction) :
    (copyTo instruction).outcome state = do
      let value ← state.requireHands .copyTo
      let tile ← instruction.operandTile state.floor
      return (false, { state with floor := state.floor.set tile value }) := by
  simp only [copyTo, outcome_ask, outcome_operandTile, outcome_writeTile, outcome_pure]

theorem outcome_combine (config : Config) (rule : Opcode)
    (operation : Value → Value → Except Fault (Within config.numberBound))
    (instruction : Instruction) :
    (combine config rule operation instruction).outcome state = do
      let hands ← state.requireHands rule
      let tile ← instruction.operandTile state.floor
      let value ← Break.ofFault (state.floor.readAt tile)
      let result ← Break.ofFault (operation hands value)
      return (false, { state with
        hands := some (.number (result.toNumber config.bound_le)) }) := by
  simp only [combine, outcome_ask, outcome_operandTile, outcome_readTile, outcome_take,
    outcome_pure]

theorem outcome_bump (config : Config) (delta : Int) (instruction : Instruction) :
    (bump config delta instruction).outcome state = do
      let tile ← instruction.operandTile state.floor
      let value ← Break.ofFault (state.floor.readAt tile)
      let result ← Break.ofFault (value.bump config.numberBound delta)
      let bumped := .number (result.toNumber config.bound_le)
      return (false, { state with
        floor := state.floor.set tile bumped, hands := some bumped }) := by
  simp only [bump, outcome_ask, outcome_operandTile, outcome_readTile, outcome_writeTile,
    outcome_take, outcome_pure]

theorem outcome_jump (instruction : Instruction) :
    (jump instruction).outcome state = .ok (true, { state with pc := instruction.target }) := rfl

theorem outcome_jumpIf (rule : Opcode) (condition : Int → Bool) (instruction : Instruction) :
    (jumpIf rule condition instruction).outcome state =
      (state.requireNumber rule).map fun tested => (condition tested.val,
        { state with pc := if condition tested.val then instruction.target else state.pc }) := by
  rw [jumpIf, outcome_ask]
  cases state.requireNumber rule with
  | error reason => rfl
  | ok tested =>
    cases met : condition tested.val <;> simp [bind, Except.bind, Except.map, met] <;> rfl

end Outcome

/-- An action that changes nothing unless it comes to its end. -/
def Atomic (action : Action α) : Prop :=
  ∀ state reason broken, action.run state = .error reason broken → broken = state

def Sure (action : Action α) : Prop :=
  ∀ state reason broken, action.run state ≠ .error reason broken

section Atomic

variable {action : Action α} {rest : α → Action β}

theorem sure_pure (value : α) : Sure (pure value : Action α) := by
  rintro state reason broken ⟨⟩

theorem sure_modify (change : State → State) : Sure (modify change : Action Unit) := by
  rintro state reason broken ⟨⟩

theorem Sure.bind (first : Sure action) (further : ∀ value, Sure (rest value)) :
    Sure (action >>= rest) := by
  intro state reason broken failed
  simp only [EStateM.run, Bind.bind, EStateM.bind] at failed
  cases done : action state with
  | ok value between =>
    rw [done] at failed
    exact further value between reason broken failed
  | error cause between => exact first state cause between done

theorem Sure.atomic (sure : Sure action) : Atomic action :=
  fun state reason broken failed => absurd failed (sure state reason broken)

/-- What only looks at the state may stand before an action. -/
theorem Keeps.bind_atomic (looks : Keeps id action) (further : ∀ value, Atomic (rest value)) :
    Atomic (action >>= rest) := by
  intro state reason broken failed
  have same := looks state
  simp only [left, id, EStateM.run] at same
  simp only [EStateM.run, Bind.bind, EStateM.bind] at failed
  cases done : action state with
  | ok value between =>
    rw [done] at failed same
    exact (further value between reason broken failed).trans same
  | error cause between =>
    rw [done] at failed same
    cases failed
    exact same

/-- What is never broken off may stand behind an action. -/
theorem Atomic.bind_sure (first : Atomic action) (further : ∀ value, Sure (rest value)) :
    Atomic (action >>= rest) := by
  intro state reason broken failed
  simp only [EStateM.run, Bind.bind, EStateM.bind] at failed
  cases done : action state with
  | ok value between =>
    rw [done] at failed
    exact absurd failed (further value between reason broken)
  | error cause between =>
    rw [done] at failed
    cases failed
    exact first state _ _ done

variable (config : Config) (instruction : Instruction)

theorem atomic_writeTile (tile : Int) (value : Value) : Atomic (writeTile tile value) :=
  (keeps_ask _).bind_atomic fun _ => (sure_modify _).atomic

theorem sure_take (value : Value) : Sure (take value) := sure_modify _

theorem atomic_takeFromInbox : Atomic takeFromInbox :=
  (keeps_ask _).bind_atomic fun value => Sure.atomic <|
    (sure_take value).bind fun _ => (sure_modify _).bind fun _ => sure_pure false

theorem atomic_putInOutbox : Atomic putInOutbox :=
  (keeps_ask _).bind_atomic fun _ => Sure.atomic <| (sure_modify _).bind fun _ => sure_pure false

theorem atomic_copyFrom : Atomic (copyFrom instruction) :=
  (keeps_ask _).bind_atomic fun _ => (keeps_ask _).bind_atomic fun value => Sure.atomic <|
    (sure_take value).bind fun _ => sure_pure false

theorem atomic_copyTo : Atomic (copyTo instruction) :=
  (keeps_ask _).bind_atomic fun value => (keeps_ask _).bind_atomic fun tile =>
    (atomic_writeTile tile value).bind_sure fun _ => sure_pure false

theorem atomic_combine (rule : Opcode)
    (operation : Value → Value → Except Fault (Within config.numberBound)) :
    Atomic (combine config rule operation instruction) :=
  (keeps_ask _).bind_atomic fun _ => (keeps_ask _).bind_atomic fun _ =>
    (keeps_ask _).bind_atomic fun _ => (keeps_ask _).bind_atomic fun _ => Sure.atomic <|
      (sure_take _).bind fun _ => sure_pure false

/-- The tile is written before the hands are; nothing can go wrong between the two. -/
theorem atomic_bump (delta : Int) : Atomic (bump config delta instruction) :=
  (keeps_ask _).bind_atomic fun tile => (keeps_ask _).bind_atomic fun _ =>
    (keeps_ask _).bind_atomic fun _ => (atomic_writeTile tile _).bind_sure fun _ =>
      (sure_take _).bind fun _ => sure_pure false

theorem sure_jump : Sure (jump instruction) := (sure_modify _).bind fun _ => sure_pure true

theorem atomic_jumpIf (rule : Opcode) (condition : Int → Bool) :
    Atomic (jumpIf rule condition instruction) := by
  refine (keeps_ask _).bind_atomic fun tested => ?_
  split
  · exact (sure_jump instruction).atomic
  · exact (sure_pure false).atomic

theorem atomic_handle : Atomic (handle config instruction) := by
  unfold handle
  split
  · exact atomic_takeFromInbox
  · exact atomic_putInOutbox
  · exact atomic_copyFrom instruction
  · exact atomic_copyTo instruction
  · exact atomic_combine config instruction _ _
  · exact atomic_combine config instruction _ _
  · exact atomic_bump config instruction _
  · exact atomic_bump config instruction _
  · exact (sure_jump instruction).atomic
  · exact atomic_jumpIf instruction _ _
  · exact atomic_jumpIf instruction _ _
  · rintro state reason broken ⟨⟩
    rfl

/-- An instruction that is broken off has changed nothing. -/
theorem atomic_perform (pc : Int) : Atomic (perform config pc instruction) := by
  -- The count and the next place are set only once nothing can go wrong any more.
  refine (atomic_handle config instruction).bind_sure fun jumped => ?_
  cases jumped with
  | false => exact (sure_modify _).bind fun _ => sure_modify _
  | true => exact (sure_pure _).bind fun _ => sure_modify _

end Atomic

end Action

namespace State

variable {config : Config} {pc : Int} {instruction : Instruction} {state after : State}

def perform (config : Config) (pc : Int) (instruction : Instruction) (state : State) :
    Except Break State :=
  ((Action.perform config pc instruction).outcome state).map Prod.snd

def carryOut (config : Config) (pc : Int) (instruction : Instruction) (state : State) :
    Except Stop State :=
  (state.perform config pc instruction).mapError
    fun reason => reason.toStop pc state.steps instruction.location

/-- One step of a program, free of step limit, log and observers. -/
def next (config : Config) (program : Program) (state : State) : Except Stop State := do
  let (pc, instruction) ← program.fetch state
  state.carryOut config pc instruction

theorem perform_eq (config : Config) (pc : Int) (instruction : Instruction) (state : State) :
    state.perform config pc instruction =
      ((Action.handle config instruction).outcome state).map fun done =>
        { done.2 with
          pc := if done.1 then done.2.pc else some (pc + 1)
          steps := done.2.steps + 1 } := by
  rw [perform, Action.perform, Action.outcome_bind]
  cases (Action.handle config instruction).outcome state with
  | error reason => rfl
  | ok done =>
    obtain ⟨jumped, between⟩ := done
    cases jumped <;> rfl

theorem attempt_of_ok (carried : state.carryOut config pc instruction = .ok after) :
    state.attempt config pc instruction = (after, none) := by
  have performed := mapError_eq_ok.mp carried
  unfold perform Action.outcome at performed
  unfold attempt
  cases run : (Action.perform config pc instruction).run state with
  | ok value left =>
    rw [run] at performed
    cases performed
    rfl
  | error reason broken =>
    rw [run] at performed
    cases performed

theorem attempt_of_error {stop : Stop}
    (stopped : state.carryOut config pc instruction = .error stop) :
    state.attempt config pc instruction = (state, some stop) := by
  obtain ⟨reason, failed, rfl⟩ := mapError_eq_error.mp stopped
  unfold perform Action.outcome at failed
  unfold attempt
  cases run : (Action.perform config pc instruction).run state with
  | ok value left =>
    rw [run] at failed
    cases failed
  | error cause broken =>
    rw [run] at failed
    cases failed
    obtain rfl := Action.atomic_perform config instruction pc state _ broken run
    rfl

theorem steps_carryOut (carried : state.carryOut config pc instruction = .ok after) :
    after.steps = state.steps + 1 :=
  steps_attempt (attempt_of_ok carried)

end State

end MailRoom
