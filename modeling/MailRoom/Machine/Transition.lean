import MailRoom.Machine.State
import MailRoom.Value.Arithmetic

/-! What each instruction does to the state, one effect after the other. An action that is broken
off leaves the state as it stands at that moment; it knows no step limit, keeps no log and calls no
observer. -/
namespace MailRoom

/-- A program that no parser produces: it lacks a meaning rather than being at fault. -/
inductive Defect where
  | foreignOpcode
  | missingAddress
  | missingTarget
  deriving DecidableEq

/-- Why an instruction was not carried out. -/
inductive Break where
  /-- The inbox has run dry. -/
  | halt
  | fault (fault : Fault)
  | defect (defect : Defect)
  deriving DecidableEq

namespace Break

def ofFault : Except Fault α → Except Break α := Except.mapError fault

end Break

namespace Instruction

def operandTile (instruction : Instruction) (floor : Floor) : Except Break (Fin floor.size) :=
  match instruction.address with
  | none => .error (.defect .missingAddress)
  | some address => Break.ofFault (floor.resolve address)

end Instruction

namespace State

def requireHands (state : State) (rule : Opcode) : Except Break Value :=
  match state.hands with
  | some value => .ok value
  | none => .error (.fault (.emptyHands rule))

/-- The number that a conditional jump tests. -/
def requireNumber (state : State) (rule : Opcode) : Except Break Number := do
  match ← state.requireHands rule with
  | .number value => return value
  | .letter char => throw (.fault (.testsNumber rule char))

def requireInbox (state : State) : Except Break Value :=
  match state.inbox[state.cursor]? with
  | some value => .ok value
  | none => .error .halt

end State

/-- What is done to a state, up to its end or up to where it is broken off. -/
abbrev Action (α : Type) := EStateM Break State α

namespace Action

/-- Looks something up in the state, which stays as it is. -/
def ask (question : State → Except Break α) : Action α := fun state =>
  match question state with
  | .ok answer => .ok answer state
  | .error reason => .error reason state

def operandTile (instruction : Instruction) : Action Int :=
  ask fun state => (instruction.operandTile state.floor).map fun tile => (tile.val : Int)

def readTile (tile : Int) : Action Value := ask fun state => Break.ofFault (state.floor.read tile)

def writeTile (tile : Int) (value : Value) : Action Unit := do
  let floor ← ask fun state => Break.ofFault (state.floor.write tile value)
  modify fun state => { state with floor }

def take (value : Value) : Action Unit := modify fun state => { state with hands := some value }

/-! Each instruction says at its end whether it has set the place to go on at itself. -/

def takeFromInbox : Action Bool := do
  take (← ask State.requireInbox)
  modify fun state => { state with cursor := state.cursor + 1 }
  return false

def putInOutbox : Action Bool := do
  let value ← ask fun state => state.requireHands .outbox
  modify fun state => { state with outbox := state.outbox ++ [value] }
  return false

def copyFrom (instruction : Instruction) : Action Bool := do
  let tile ← operandTile instruction
  take (← readTile tile)
  return false

def copyTo (instruction : Instruction) : Action Bool := do
  let value ← ask fun state => state.requireHands .copyTo
  let tile ← operandTile instruction
  writeTile tile value
  return false

/-- Hands combined with a tile, the result within the bound. -/
def combine (config : Config) (rule : Opcode)
    (operation : Value → Value → Except Fault (Within config.numberBound))
    (instruction : Instruction) : Action Bool := do
  let hands ← ask fun state => state.requireHands rule
  let tile ← operandTile instruction
  let value ← readTile tile
  let result ← ask fun _ => Break.ofFault (operation hands value)
  take (.number (result.toNumber config.bound_le))
  return false

/-- A tile counted up or down, the result on the tile and in hands. -/
def bump (config : Config) (delta : Int) (instruction : Instruction) : Action Bool := do
  let tile ← operandTile instruction
  let value ← readTile tile
  let result ← ask fun _ => Break.ofFault (value.bump config.numberBound delta)
  let bumped := .number (result.toNumber config.bound_le)
  writeTile tile bumped
  take bumped
  return false

def jump (instruction : Instruction) : Action Bool := do
  modify fun state => { state with pc := instruction.target }
  return true

def jumpIf (rule : Opcode) (condition : Int → Bool) (instruction : Instruction) : Action Bool := do
  let tested ← ask fun state => state.requireNumber rule
  if condition tested.val then jump instruction else return false

def handle (config : Config) (instruction : Instruction) : Action Bool :=
  match instruction.opcode with
  | .inbox => takeFromInbox
  | .outbox => putInOutbox
  | .copyFrom => copyFrom instruction
  | .copyTo => copyTo instruction
  | .add => combine config .add (Value.add _) instruction
  | .sub => combine config .sub (Value.sub _) instruction
  | .bumpUp => bump config 1 instruction
  | .bumpDown => bump config (-1) instruction
  | .jump => jump instruction
  | .jumpIfZero => jumpIf .jumpIfZero (· = 0) instruction
  | .jumpIfNegative => jumpIf .jumpIfNegative (· < 0) instruction
  | .foreign _ => throw (.defect .foreignOpcode)

/-- Carries out an instruction at an index and counts it. -/
def perform (config : Config) (pc : Int) (instruction : Instruction) : Action Unit := do
  let jumped ← handle config instruction
  if !jumped then modify fun state => { state with pc := some (pc + 1) }
  modify fun state => { state with steps := state.steps + 1 }

/-- The state that an action leaves, whether it is broken off or not. -/
def left (action : Action α) (state : State) : State :=
  match action.run state with
  | .ok _ left => left
  | .error _ left => left

/-- An action never changes a part of the state. -/
def Keeps (part : State → β) (action : Action α) : Prop :=
  ∀ state, part (action.left state) = part state

section Keeps

variable {part : State → γ}

theorem keeps_pure (value : α) : Keeps part (pure value : Action α) := fun _ => rfl

theorem keeps_throw (reason : Break) : Keeps part (throw reason : Action α) := fun _ => rfl

theorem keeps_ask (question : State → Except Break α) : Keeps part (ask question) := by
  intro state
  cases answer : question state <;> simp [left, ask, EStateM.run, answer]

theorem keeps_modify {change : State → State} (same : ∀ state, part (change state) = part state) :
    Keeps part (modify change : Action Unit) := same

theorem Keeps.bind {action : Action α} {rest : α → Action β} (first : Keeps part action)
    (further : ∀ value, Keeps part (rest value)) : Keeps part (action >>= rest) := by
  intro state
  have before := first state
  simp only [left, EStateM.run, Bind.bind, EStateM.bind] at before ⊢
  cases done : action state with
  | ok value between =>
    rw [done] at before
    exact (further value between).trans before
  | error reason between =>
    rw [done] at before
    exact before

end Keeps

section Steps

variable (config : Config) (instruction : Instruction)

theorem keeps_steps_writeTile (tile : Int) (value : Value) :
    Keeps State.steps (writeTile tile value) :=
  (keeps_ask _).bind fun _ => keeps_modify fun _ => rfl

theorem keeps_steps_take (value : Value) : Keeps State.steps (take value) :=
  keeps_modify fun _ => rfl

theorem keeps_steps_combine (rule : Opcode)
    (operation : Value → Value → Except Fault (Within config.numberBound)) :
    Keeps State.steps (combine config rule operation instruction) :=
  (keeps_ask _).bind fun _ => (keeps_ask _).bind fun _ => (keeps_ask _).bind fun _ =>
    (keeps_ask _).bind fun _ => (keeps_steps_take _).bind fun _ => keeps_pure false

theorem keeps_steps_bump (delta : Int) : Keeps State.steps (bump config delta instruction) :=
  (keeps_ask _).bind fun _ => (keeps_ask _).bind fun _ => (keeps_ask _).bind fun _ =>
    (keeps_steps_writeTile _ _).bind fun _ => (keeps_steps_take _).bind fun _ => keeps_pure false

theorem keeps_steps_jump : Keeps State.steps (jump instruction) :=
  Keeps.bind (keeps_modify fun _ => rfl) fun _ => keeps_pure true

theorem keeps_steps_jumpIf (rule : Opcode) (condition : Int → Bool) :
    Keeps State.steps (jumpIf rule condition instruction) := by
  refine (keeps_ask _).bind fun tested => ?_
  split
  · exact keeps_steps_jump instruction
  · exact keeps_pure false

theorem keeps_steps_handle : Keeps State.steps (handle config instruction) := by
  unfold handle
  split
  · exact (keeps_ask _).bind fun _ => (keeps_steps_take _).bind fun _ =>
      Keeps.bind (keeps_modify fun _ => rfl) fun _ => keeps_pure false
  · exact (keeps_ask _).bind fun _ =>
      Keeps.bind (keeps_modify fun _ => rfl) fun _ => keeps_pure false
  · exact (keeps_ask _).bind fun _ => (keeps_ask _).bind fun _ =>
      (keeps_steps_take _).bind fun _ => keeps_pure false
  · exact (keeps_ask _).bind fun _ => (keeps_ask _).bind fun _ =>
      (keeps_steps_writeTile _ _).bind fun _ => keeps_pure false
  · exact keeps_steps_combine config instruction _ _
  · exact keeps_steps_combine config instruction _ _
  · exact keeps_steps_bump config instruction _
  · exact keeps_steps_bump config instruction _
  · exact keeps_steps_jump instruction
  · exact keeps_steps_jumpIf instruction _ _
  · exact keeps_steps_jumpIf instruction _ _
  · exact keeps_throw _

theorem steps_perform {pc : Int} {state after : State}
    (done : (perform config pc instruction).run state = .ok () after) :
    after.steps = state.steps + 1 := by
  have kept := keeps_steps_handle config instruction state
  simp only [perform, EStateM.run, bind, EStateM.bind] at done
  unfold left EStateM.run at kept
  cases handled : handle config instruction state with
  | error reason broken =>
    rw [handled] at done
    cases done
  | ok jumped between =>
    rw [handled] at done kept
    cases jumped <;> cases done <;> exact congrArg (· + 1) kept

end Steps

end Action

end MailRoom
