import MailRoom.Machine.Transition

/-! The specification of the instructions: what each of them asks for, in the order in which it
asks, and what it does once nothing is missing. -/
namespace MailRoom

/-- An instruction with the operand that its opcode goes with. -/
structure Instruction.Complete (instruction : Instruction) : Prop where
  known : instruction.opcode.shape?.isSome
  addressed : instruction.opcode.shape? = some .address →
    ∃ address, instruction.address = some address ∧ 0 ≤ address.tile
  aimed : instruction.opcode.shape? = some .label → ∃ target, instruction.target = some target

def Program.Complete (program : Program) : Prop :=
  ∀ instruction ∈ program.instructions, instruction.Complete

namespace Spec

inductive Complaint where
  | emptyHands
  | tileEmpty
  | typeMismatch
  | overflow
  | invalidAddress
  deriving DecidableEq

def Complaint.kind : Complaint → String
  | emptyHands => "EmptyHands"
  | tileEmpty => "TileEmpty"
  | typeMismatch => "TypeMismatch"
  | overflow => "Overflow"
  | invalidAddress => "InvalidAddress"

inductive Demand where
  /-- Something in hands. -/
  | hands
  /-- An address that leads to a tile. -/
  | address
  /-- A value on that tile. -/
  | written
  /-- No letter among the values worked on. -/
  | numbers
  /-- A result within the bound. -/
  | bound
  deriving DecidableEq

/-- What an instruction asks for; the first demand that is not met is complained about. -/
def demands : Opcode → List Demand
  | .outbox => [.hands]
  | .copyFrom => [.address, .written]
  | .copyTo => [.hands, .address]
  | .add | .sub => [.hands, .address, .written, .numbers, .bound]
  | .bumpUp | .bumpDown => [.address, .written, .numbers, .bound]
  | .jumpIfZero | .jumpIfNegative => [.hands, .numbers]
  | .inbox | .jump | .foreign _ => []

def OnFloor (floor : Floor) (tile : Int) : Prop := 0 ≤ tile ∧ tile < floor.size

instance (floor : Floor) (tile : Int) : Decidable (OnFloor floor tile) :=
  inferInstanceAs (Decidable (_ ∧ _))

/-- What lies on a tile, if there is such a tile and anything lies there. -/
def lying (floor : Floor) (tile : Int) : Option Value :=
  if 0 ≤ tile then floor.tiles[tile.toNat]?.join else none

/-- The tile number that an address stands for, a pointer being read off the floor as it is. -/
def leadsTo (floor : Floor) (address : Address) : Option Int :=
  if address.indirect then
    match lying floor address.tile with
    | some (.number pointer) => some pointer.val
    | _ => none
  else some address.tile

/-- What is wrong with an address: its pointer first, then the tile that it leads to. -/
def astray (floor : Floor) (address : Address) : Option Complaint :=
  if address.indirect ∧ ¬OnFloor floor address.tile then some .invalidAddress
  else if address.indirect ∧ lying floor address.tile = none then some .tileEmpty
  else match leadsTo floor address with
    | some tile => if OnFloor floor tile then none else some .invalidAddress
    | none => some .invalidAddress

variable (config : Config) (instruction : Instruction) (state : State)

/-- The tile number that the operand stands for. -/
def target? : Option Int := instruction.address.bind (leadsTo state.floor)

/-- The value on the tile that the operand stands for. -/
def operand? : Option Value := (target? instruction state).bind (lying state.floor)

/-- The values that an instruction works on. -/
def workedOn : List Value :=
  (if .hands ∈ demands instruction.opcode then state.hands.toList else []) ++
    (if .written ∈ demands instruction.opcode then (operand? instruction state).toList else [])

/-- The exact result of an instruction that computes one. -/
def result? : Option Int :=
  match instruction.opcode, state.hands, operand? instruction state with
  | .add, some (.number hands), some (.number tile) => some (hands.val + tile.val)
  | .sub, some (.number hands), some (.number tile) => some (hands.val - tile.val)
  | .bumpUp, _, some (.number tile) => some (tile.val + 1)
  | .bumpDown, _, some (.number tile) => some (tile.val - 1)
  | _, _, _ => none

/-- The complaint about a demand that is not met. -/
def lacks : Demand → Option Complaint
  | .hands => if state.hands = none then some .emptyHands else none
  | .address => instruction.address.bind (astray state.floor)
  | .written => if operand? instruction state = none then some .tileEmpty else none
  | .numbers =>
    if ∃ value ∈ workedOn instruction state, value.kind = .letter then some .typeMismatch else none
  | .bound =>
    if ∀ result ∈ result? instruction state,
      -(config.numberBound : Int) ≤ result ∧ result ≤ config.numberBound then none
    else some .overflow

def computed? : Option Value := ((result? instruction state).bind Number.ofInt?).map .number

/-- What hands hold after an instruction. -/
def handsAfter : Option Value :=
  match instruction.opcode with
  | .inbox => state.inbox[state.cursor]?
  | .copyFrom => operand? instruction state
  | .add | .sub | .bumpUp | .bumpDown => computed? instruction state
  | _ => state.hands

/-- The floor with something laid on one of its tiles. -/
def laid (floor : Floor) (tile : Option Int) (value : Option Value) : Floor :=
  match tile with
  | some tile => ⟨floor.tiles.setIfInBounds tile.toNat value⟩
  | none => floor

def floorAfter : Floor :=
  match instruction.opcode with
  | .copyTo => laid state.floor (target? instruction state) state.hands
  | .bumpUp | .bumpDown =>
    laid state.floor (target? instruction state) (computed? instruction state)
  | _ => state.floor

def jumps : Bool :=
  match instruction.opcode, state.hands with
  | .jump, _ => true
  | .jumpIfZero, some (.number tested) => tested.val = 0
  | .jumpIfNegative, some (.number tested) => tested.val < 0
  | _, _ => false

/-- The state after an instruction at an index, field by field. -/
def after (pc : Int) : State where
  pc := if jumps instruction state then instruction.target else some (pc + 1)
  hands := handsAfter instruction state
  floor := floorAfter instruction state
  inbox := state.inbox
  cursor := if instruction.opcode = .inbox then state.cursor + 1 else state.cursor
  outbox :=
    if instruction.opcode = .outbox then state.outbox ++ state.hands.toList else state.outbox
  steps := state.steps + 1

inductive Outcome where
  | complaint (complaint : Complaint)
  | halt
  | next (state : State)

/-- The first complaint about some demands, or what happens once they are met. -/
def settled (onward : Outcome) (demands : List Demand) : Outcome :=
  match demands.findSome? (lacks config instruction state) with
  | some complaint => .complaint complaint
  | none => onward

def outcome (pc : Int) : Outcome :=
  settled config instruction state
    (if instruction.opcode = .inbox ∧ state.inbox.length ≤ state.cursor then .halt
      else .next (after instruction state pc))
    (demands instruction.opcode)

/-- What the machine makes of an instruction is what the specification has happen. -/
def Meets (result : Except Break State) : Outcome → Prop
  | .complaint complaint => ∃ fault, result = .error (.fault fault) ∧ fault.kind = complaint.kind
  | .halt => result = .error .halt
  | .next state => result = .ok state

section Outcome

variable {config : Config} {instruction : Instruction} {state next : State} {pc : Int}

/-- All that an instruction asks for is there. -/
def Met (config : Config) (instruction : Instruction) (state : State) : Prop :=
  ∀ demand ∈ demands instruction.opcode, lacks config instruction state demand = none

theorem outcome_eq_next : outcome config instruction state pc = .next next ↔
    Met config instruction state ∧
      (instruction.opcode = .inbox → state.cursor < state.inbox.length) ∧
      next = after instruction state pc := by
  unfold outcome settled Met
  rw [← List.findSome?_eq_none_iff]
  cases (demands instruction.opcode).findSome? (lacks config instruction state) with
  | some complaint => simp
  | none =>
    by_cases dry : instruction.opcode = .inbox ∧ state.inbox.length ≤ state.cursor
    · simp only [dry, and_self, if_true, reduceCtorEq, true_and, forall_const, false_iff, not_and]
      exact fun supplied => absurd dry.2 (Nat.not_le.mpr supplied)
    · simp only [dry, if_false, Outcome.next.injEq, true_and]
      constructor
      · rintro rfl
        exact ⟨fun takes => Nat.lt_of_not_le fun short => dry ⟨takes, short⟩, rfl⟩
      · exact fun supplied => supplied.2.symm

theorem outcome_eq_halt : outcome config instruction state pc = .halt ↔
    Met config instruction state ∧ instruction.opcode = .inbox ∧
      state.inbox.length ≤ state.cursor := by
  unfold outcome settled Met
  rw [← List.findSome?_eq_none_iff]
  cases (demands instruction.opcode).findSome? (lacks config instruction state) with
  | some complaint => simp
  | none =>
    by_cases dry : instruction.opcode = .inbox ∧ state.inbox.length ≤ state.cursor <;> simp [dry]

theorem meets_ok {outcome : Outcome} : Meets (.ok next) outcome ↔ outcome = .next next := by
  cases outcome <;> simp [Meets, eq_comm]

theorem meets_halt {outcome : Outcome} : Meets (.error .halt) outcome ↔ outcome = .halt := by
  cases outcome <;> simp [Meets]

end Outcome

end Spec

end MailRoom
