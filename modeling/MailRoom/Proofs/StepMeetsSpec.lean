import MailRoom.Proofs.InstructionSpec
import MailRoom.Proofs.UnwatchedSessions

/-! The machine does what the specification says. Main statements: `Spec.perform_meets`, by which an
instruction that is carried out meets its outcome, and `Spec.step_shows_outcome`, by which a step
shows it. -/
namespace MailRoom

namespace Spec

section Floor

variable {floor : Floor}

theorem lying_val (tile : Fin floor.size) : lying floor (tile.val : Int) = floor.get tile := by
  simp [lying, Floor.get]

theorem place_onFloor {tile : Int} (inside : OnFloor floor tile) :
    ∃ found, floor.place tile = .ok found ∧ (found.val : Int) = tile := by
  obtain ⟨natural, small⟩ := inside
  refine ⟨⟨tile.toNat, by omega⟩, ?_, by simp only; omega⟩
  simp [Floor.place, natural, small]

theorem place_offFloor {tile : Int} (outside : ¬OnFloor floor tile) :
    floor.place tile = .error (.outsideFloor tile floor.size) :=
  dif_neg outside

theorem peek_onFloor {tile : Int} (inside : OnFloor floor tile) :
    floor.peek tile = .ok (lying floor tile) := by
  obtain ⟨found, placed, same⟩ := place_onFloor inside
  simp only [Floor.peek, placed, Except.map]
  rw [← same, lying_val]

theorem set_eq_laid (tile : Fin floor.size) (value : Value) :
    floor.set tile value = laid floor (some (tile.val : Int)) (some value) := by
  simp [Floor.set, laid, Array.setIfInBounds]

/-- Resolving an address fails with the complaint of the specification, and otherwise gives the tile
that the address stands for. -/
theorem resolve_spec (floor : Floor) (address : Address) :
    match astray floor address with
    | some complaint => ∃ fault, floor.resolve address = .error fault ∧ fault.kind = complaint.kind
    | none => ∃ tile : Fin floor.size,
        floor.resolve address = .ok tile ∧ leadsTo floor address = some (tile.val : Int) := by
  obtain ⟨tile, indirect⟩ := address
  by_cases inside : OnFloor floor tile
  · cases indirect with
    | false =>
      obtain ⟨found, placed, same⟩ := place_onFloor inside
      simp [astray, leadsTo, Floor.resolve, inside, placed, same]
    | true =>
      -- The pointer is on the floor: what lies there decides.
      cases there : lying floor tile with
      | none =>
        simp [astray, Floor.resolve, inside, peek_onFloor inside, there, bind, Except.bind, throw,
          throwThe, MonadExceptOf.throw, Fault.kind, Complaint.kind]
      | some value =>
        cases value with
        | letter char =>
          simp [astray, leadsTo, Floor.resolve, inside, peek_onFloor inside, there, bind,
            Except.bind, throw, throwThe, MonadExceptOf.throw, Fault.kind, Complaint.kind]
        | number pointer =>
          by_cases reached : OnFloor floor pointer.val
          · obtain ⟨found, placed, same⟩ := place_onFloor reached
            simp [astray, leadsTo, Floor.resolve, inside, peek_onFloor inside, there, bind,
              Except.bind, reached, placed, same]
          · simp [astray, leadsTo, Floor.resolve, inside, peek_onFloor inside, there, bind,
              Except.bind, reached, place_offFloor reached, Fault.kind, Complaint.kind]
  · cases indirect with
    | false =>
      simp [astray, leadsTo, Floor.resolve, inside, place_offFloor inside, Fault.kind,
        Complaint.kind]
    | true =>
      simp [astray, Floor.resolve, Floor.peek, inside, place_offFloor inside, Except.map, bind,
        Except.bind, Fault.kind, Complaint.kind]

end Floor

variable {config : Config} {instruction : Instruction} {state : State}

/-- What a part of an instruction gives is what one demand asks for, or a fault about it. -/
def Answers (config : Config) (instruction : Instruction) (state : State) (demand : Demand)
    (result : Except Break α) (good : α → Prop) : Prop :=
  match lacks config instruction state demand with
  | some complaint => ∃ fault, result = .error (.fault fault) ∧ fault.kind = complaint.kind
  | none => ∃ value, result = .ok value ∧ good value

/-- Parts of an instruction that answer its demands one after the other meet the
specification. -/
theorem Answers.meets {result : Except Break α} {good : α → Prop} {demand : Demand}
    {demands : List Demand} {rest : α → Except Break State} {onward : Outcome}
    (answers : Answers config instruction state demand result good)
    (further : ∀ value, good value →
      Meets (rest value) (settled config instruction state onward demands)) :
    Meets (result >>= rest) (settled config instruction state onward (demand :: demands)) := by
  unfold Answers at answers
  unfold settled at further ⊢
  rw [List.findSome?_cons]
  cases wrong : lacks config instruction state demand with
  | some complaint =>
    rw [wrong] at answers
    obtain ⟨fault, failed, kind⟩ := answers
    exact ⟨fault, by rw [failed]; rfl, kind⟩
  | none =>
    rw [wrong] at answers
    obtain ⟨value, found, fine⟩ := answers
    rw [found]
    exact further value fine

theorem answers_hands (rule : Opcode) :
    Answers config instruction state .hands (state.requireHands rule)
      fun value => state.hands = some value := by
  unfold Answers lacks State.requireHands
  cases state.hands with
  | none => exact ⟨_, rfl, rfl⟩
  | some value => exact ⟨value, rfl, rfl⟩

theorem answers_address {address : Address} (addressed : instruction.address = some address) :
    Answers config instruction state .address (instruction.operandTile state.floor)
      fun tile => target? instruction state = some (tile.val : Int) ∧
        operand? instruction state = state.floor.get tile := by
  have resolved := resolve_spec state.floor address
  simp only [Answers, lacks, addressed, Option.bind_some, Instruction.operandTile, Break.ofFault]
  cases wrong : astray state.floor address with
  | some complaint =>
    rw [wrong] at resolved
    obtain ⟨fault, failed, kind⟩ := resolved
    exact ⟨fault, by rw [failed]; rfl, kind⟩
  | none =>
    rw [wrong] at resolved
    obtain ⟨tile, found, leads⟩ := resolved
    refine ⟨tile, by rw [found]; rfl, ?_, ?_⟩
    · simp [target?, addressed, leads]
    · simp [operand?, target?, addressed, leads, lying_val]

theorem answers_written {tile : Fin state.floor.size}
    (operand : operand? instruction state = state.floor.get tile) :
    Answers config instruction state .written (Break.ofFault (state.floor.readAt tile))
      fun value => operand? instruction state = some value := by
  simp only [Answers, lacks, operand, Floor.readAt]
  cases state.floor.get tile with
  | none => exact ⟨_, rfl, rfl⟩
  | some value => exact ⟨value, rfl, rfl⟩

/-- A result is refused exactly when it lies outside the bound, and an accepted one is a number. -/
theorem answers_bound (rule : Opcode) {result : Int}
    (exact : result? instruction state = some result)
    (small : (config.numberBound : Int) ≤ 2147483647) :
    Answers config instruction state .bound
      (Break.ofFault (Within.check rule config.numberBound result))
      fun kept => computed? instruction state = some (.number (kept.toNumber small)) := by
  simp only [Answers, lacks, exact, Option.mem_def, Option.some.injEq, forall_eq', Within.check]
  by_cases inside : -(config.numberBound : Int) ≤ result ∧ result ≤ config.numberBound
  · have fits : -2147483648 ≤ result ∧ result ≤ 2147483647 := by omega
    simp only [inside, and_self, if_true, dite_true]
    refine ⟨_, rfl, ?_⟩
    simp [computed?, exact, Number.ofInt?, fits, Within.toNumber]
  · simp only [inside, if_false, dite_false]
    exact ⟨_, rfl, rfl⟩

theorem answers_numbers_pair (rule : Opcode) {hands tile : Value}
    (works : workedOn instruction state = [hands, tile]) :
    Answers config instruction state .numbers (Break.ofFault (Value.operands rule hands tile))
      fun pair => ∃ left right, hands = .number left ∧ tile = .number right ∧
        pair = (left.val, right.val) := by
  unfold Answers lacks
  rw [works]
  cases hands with
  | letter char => cases tile <;> exact ⟨_, rfl, rfl⟩
  | number left =>
    cases tile with
    | letter char => exact ⟨_, rfl, rfl⟩
    | number right => exact ⟨_, rfl, left, right, rfl, rfl, rfl⟩

/-- A value as a number; a letter is refused. -/
def numberOr (refusal : Char → Fault) : Value → Except Fault Number
  | .number value => .ok value
  | .letter char => .error (refusal char)

theorem answers_number {refusal : Char → Fault}
    (kind : ∀ char, (refusal char).kind = Complaint.typeMismatch.kind) {value : Value}
    (works : workedOn instruction state = [value]) :
    Answers config instruction state .numbers (Break.ofFault (numberOr refusal value))
      fun found => value = .number found := by
  unfold Answers lacks
  rw [works]
  cases value with
  | letter char => exact ⟨_, rfl, kind char⟩
  | number found => exact ⟨found, rfl, rfl⟩

theorem inbox_meets (pc : Int) (opcode : instruction.opcode = .inbox) :
    Meets (state.perform config pc instruction) (outcome config instruction state pc) := by
  cases there : state.inbox[state.cursor]? with
  | none =>
    have dry := List.getElem?_eq_none_iff.mp there
    simp [outcome, settled, demands, opcode, dry, Meets, State.perform_eq, Action.handle,
      Action.outcome_takeFromInbox, State.requireInbox, bind, Except.bind, Except.map]
  | some value =>
    have inside := (List.getElem?_eq_some_iff.mp there).1
    have more : ¬state.inbox.length ≤ state.cursor := by omega
    simp [outcome, settled, demands, opcode, more, Meets, State.perform_eq, Action.handle,
      Action.outcome_takeFromInbox, State.requireInbox, there, bind, Except.bind, pure,
      Except.pure, Except.map, after, jumps, handsAfter, floorAfter]

theorem outbox_meets (pc : Int) (opcode : instruction.opcode = .outbox) :
    Meets (state.perform config pc instruction) (outcome config instruction state pc) := by
  simp only [outcome, demands, State.perform_eq, Action.handle, opcode, Action.outcome_putInOutbox,
    map_of_bind]
  apply (answers_hands .outbox).meets
  intro value held
  simp [settled, Meets, after, jumps, handsAfter, floorAfter, opcode, held, pure, Except.pure,
    Except.map]

theorem copyFrom_meets (pc : Int) (opcode : instruction.opcode = .copyFrom)
    {address : Address} (addressed : instruction.address = some address) :
    Meets (state.perform config pc instruction) (outcome config instruction state pc) := by
  simp only [outcome, demands, State.perform_eq, Action.handle, opcode, Action.outcome_copyFrom,
    map_of_bind]
  apply (answers_address addressed).meets
  rintro tile ⟨target, operand⟩
  apply (answers_written operand).meets
  intro value there
  simp [settled, Meets, after, jumps, handsAfter, floorAfter, opcode, there, pure, Except.pure,
    Except.map]

theorem copyTo_meets (pc : Int) (opcode : instruction.opcode = .copyTo)
    {address : Address} (addressed : instruction.address = some address) :
    Meets (state.perform config pc instruction) (outcome config instruction state pc) := by
  simp only [outcome, demands, State.perform_eq, Action.handle, opcode, Action.outcome_copyTo,
    map_of_bind]
  apply (answers_hands .copyTo).meets
  intro value held
  apply (answers_address addressed).meets
  rintro tile ⟨target, operand⟩
  simp [settled, Meets, after, jumps, handsAfter, floorAfter, opcode, held, target, set_eq_laid,
    pure, Except.pure, Except.map]

theorem ofFault_bind {result : Except Fault α} {rest : α → Except Fault β} :
    Break.ofFault (result >>= rest) = Break.ofFault result >>= fun value =>
      Break.ofFault (rest value) := by
  cases result <;> rfl

/-- Hands and tile combined: whatever is computed, the demands are met in the same order. -/
theorem combine_meets (rule : Opcode) (compute : Int → Int → Int) {change : Bool × State → State}
    {onward : Outcome} {address : Address} (addressed : instruction.address = some address)
    (works : ∀ hands tile, state.hands = some hands → operand? instruction state = some tile →
      workedOn instruction state = [hands, tile])
    (exact : ∀ left right, state.hands = some (.number left) →
      operand? instruction state = some (.number right) →
      result? instruction state = some (compute left.val right.val))
    (ends : ∀ value, computed? instruction state = some value →
      Meets (.ok (change (false, { state with hands := some value }))) onward) :
    Meets (((Action.combine config rule (fun left right => do
        let (left, right) ← Value.operands rule left right
        Within.check rule config.numberBound (compute left right))
        instruction).outcome state).map change)
      (settled config instruction state onward [.hands, .address, .written, .numbers, .bound]) := by
  simp only [Action.outcome_combine, ofFault_bind, map_of_bind, bind_assoc]
  apply (answers_hands rule).meets
  intro hands held
  apply (answers_address addressed).meets
  rintro tile ⟨target, operand⟩
  apply (answers_written operand).meets
  intro value there
  apply (answers_numbers_pair rule (works hands value held there)).meets
  rintro pair ⟨left, right, rfl, rfl, rfl⟩
  apply (answers_bound rule (exact left right held there)
    (by have := config.bound_fits; omega)).meets
  intro kept computed
  exact ends _ computed

theorem bump_eq (bound delta : Int) (value : Value) :
    value.bump bound delta =
      numberOr (fun _ => .needsNumber (Value.bumpRule delta) .letter) value >>= fun found =>
        Within.check (Value.bumpRule delta) bound (found.val + delta) := by
  cases value <;> rfl

theorem requireNumber_eq (state : State) (rule : Opcode) :
    state.requireNumber rule =
      state.requireHands rule >>= fun value => Break.ofFault (numberOr (.testsNumber rule) value) := by
  unfold State.requireNumber
  congr
  funext value
  cases value <;> rfl

theorem bump_meets (delta : Int) {change : Bool × State → State} {onward : Outcome} {address : Address}
    (addressed : instruction.address = some address)
    (works : ∀ tile, operand? instruction state = some tile → workedOn instruction state = [tile])
    (exact : ∀ bumped, operand? instruction state = some (.number bumped) →
      result? instruction state = some (bumped.val + delta))
    (ends : ∀ tile value, target? instruction state = some tile →
      computed? instruction state = some value →
      Meets (.ok (change (false, { state with
        floor := laid state.floor (some tile) (some value), hands := some value }))) onward) :
    Meets (((Action.bump config delta instruction).outcome state).map change)
      (settled config instruction state onward [.address, .written, .numbers, .bound]) := by
  simp only [Action.outcome_bump, bump_eq, ofFault_bind, map_of_bind, bind_assoc]
  apply (answers_address addressed).meets
  rintro tile ⟨target, operand⟩
  apply (answers_written operand).meets
  intro value there
  apply (answers_number (fun _ => rfl) (works value there)).meets
  rintro bumped rfl
  apply (answers_bound (Value.bumpRule delta) (exact bumped there)
    (by have := config.bound_fits; omega)).meets
  intro kept computed
  rw [set_eq_laid]
  exact ends _ _ target computed

theorem condition_meets (rule : Opcode) (condition : Int → Bool) {change : Bool × State → State}
    {onward : Outcome}
    (works : ∀ hands, state.hands = some hands → workedOn instruction state = [hands])
    (ends : ∀ tested, state.hands = some (.number tested) →
      Meets (.ok (change (condition tested.val, { state with
        pc := if condition tested.val then instruction.target else state.pc }))) onward) :
    Meets (((Action.jumpIf rule condition instruction).outcome state).map change)
      (settled config instruction state onward [.hands, .numbers]) := by
  rw [Action.outcome_jumpIf, map_of_map, requireNumber_eq, map_of_bind]
  apply (answers_hands rule).meets
  intro hands held
  rw [← bind_pure (Break.ofFault _), map_of_bind]
  apply (answers_number (fun _ => rfl) (works hands held)).meets
  rintro tested rfl
  exact ends tested held

theorem add_meets (pc : Int) (opcode : instruction.opcode = .add)
    {address : Address} (addressed : instruction.address = some address) :
    Meets (state.perform config pc instruction) (outcome config instruction state pc) := by
  simp only [outcome, demands, State.perform_eq, Action.handle, opcode]
  apply combine_meets .add (· + ·) addressed
  · intro hands tile held there
    simp [workedOn, demands, opcode, held, there]
  · intro left right held there
    simp [result?, opcode, held, there]
  · intro value computed
    simp [Meets, after, jumps, handsAfter, floorAfter, opcode, computed]

theorem sub_meets (pc : Int) (opcode : instruction.opcode = .sub)
    {address : Address} (addressed : instruction.address = some address) :
    Meets (state.perform config pc instruction) (outcome config instruction state pc) := by
  simp only [outcome, demands, State.perform_eq, Action.handle, opcode]
  apply combine_meets .sub (· - ·) addressed
  · intro hands tile held there
    simp [workedOn, demands, opcode, held, there]
  · intro left right held there
    simp [result?, opcode, held, there]
  · intro value computed
    simp [Meets, after, jumps, handsAfter, floorAfter, opcode, computed]

theorem bumpUp_meets (pc : Int) (opcode : instruction.opcode = .bumpUp)
    {address : Address} (addressed : instruction.address = some address) :
    Meets (state.perform config pc instruction) (outcome config instruction state pc) := by
  simp only [outcome, demands, State.perform_eq, Action.handle, opcode]
  apply bump_meets 1 addressed
  · intro tile there
    simp [workedOn, demands, opcode, there]
  · intro bumped there
    simp [result?, opcode, there]
  · intro tile value target computed
    simp [Meets, after, jumps, handsAfter, floorAfter, opcode, target, computed]

theorem bumpDown_meets (pc : Int) (opcode : instruction.opcode = .bumpDown)
    {address : Address} (addressed : instruction.address = some address) :
    Meets (state.perform config pc instruction) (outcome config instruction state pc) := by
  simp only [outcome, demands, State.perform_eq, Action.handle, opcode]
  apply bump_meets (-1) addressed
  · intro tile there
    simp [workedOn, demands, opcode, there]
  · intro bumped there
    simp [result?, opcode, there]
    rfl
  · intro tile value target computed
    simp [Meets, after, jumps, handsAfter, floorAfter, opcode, target, computed]

theorem jump_meets (pc : Int) (opcode : instruction.opcode = .jump) :
    Meets (state.perform config pc instruction) (outcome config instruction state pc) := by
  simp [outcome, settled, demands, opcode, Meets, State.perform_eq, Action.handle,
    Action.outcome_jump, Except.map, after, jumps, handsAfter, floorAfter]

theorem jumpIfZero_meets (pc : Int) (opcode : instruction.opcode = .jumpIfZero) :
    Meets (state.perform config pc instruction) (outcome config instruction state pc) := by
  simp only [outcome, demands, State.perform_eq, Action.handle, opcode]
  apply condition_meets .jumpIfZero (· = 0)
  · intro hands held
    simp [workedOn, demands, opcode, held]
  · intro tested held
    by_cases met : tested.val = 0 <;>
      simp [Meets, after, jumps, handsAfter, floorAfter, opcode, held, met]

theorem jumpIfNegative_meets (pc : Int) (opcode : instruction.opcode = .jumpIfNegative) :
    Meets (state.perform config pc instruction) (outcome config instruction state pc) := by
  simp only [outcome, demands, State.perform_eq, Action.handle, opcode]
  apply condition_meets .jumpIfNegative (· < 0)
  · intro hands held
    simp [workedOn, demands, opcode, held]
  · intro tested held
    by_cases met : tested.val < 0 <;>
      simp [Meets, after, jumps, handsAfter, floorAfter, opcode, held, met]

/-- Carrying out an instruction is what the specification has happen. -/
theorem perform_meets (config : Config) (state : State) (complete : instruction.Complete)
    (pc : Int) :
    Meets (state.perform config pc instruction) (outcome config instruction state pc) := by
  have addressed := complete.addressed
  cases opcode : instruction.opcode with
  | inbox => exact inbox_meets pc opcode
  | outbox => exact outbox_meets pc opcode
  | copyFrom =>
    obtain ⟨address, addressed, _⟩ := addressed (by rw [opcode]; rfl)
    exact copyFrom_meets pc opcode addressed
  | copyTo =>
    obtain ⟨address, addressed, _⟩ := addressed (by rw [opcode]; rfl)
    exact copyTo_meets pc opcode addressed
  | add =>
    obtain ⟨address, addressed, _⟩ := addressed (by rw [opcode]; rfl)
    exact add_meets pc opcode addressed
  | sub =>
    obtain ⟨address, addressed, _⟩ := addressed (by rw [opcode]; rfl)
    exact sub_meets pc opcode addressed
  | bumpUp =>
    obtain ⟨address, addressed, _⟩ := addressed (by rw [opcode]; rfl)
    exact bumpUp_meets pc opcode addressed
  | bumpDown =>
    obtain ⟨address, addressed, _⟩ := addressed (by rw [opcode]; rfl)
    exact bumpDown_meets pc opcode addressed
  | jump => exact jump_meets pc opcode
  | jumpIfZero => exact jumpIfZero_meets pc opcode
  | jumpIfNegative => exact jumpIfNegative_meets pc opcode
  | foreign name =>
    have known := complete.known
    simp [opcode, Opcode.shape?] at known

/-- What a step on a state has to show for an outcome: the state that it leaves behind and the stop
that it comes to. An instruction that was carried out may still have been one too many. -/
def Shows (machine : Machine) (pc : Int) (instruction : Instruction) (state : State)
    (step : Progress) : Outcome → Prop
  | .complaint complaint => step.1.state = state ∧
      ∃ fault, step.2 = some (.fault ⟨fault, some pc, some state.steps, instruction.location⟩) ∧
        fault.kind = complaint.kind
  | .halt => step.1.state = state ∧ step.2 = some .halt
  | .next next => step.1.state = next ∧
      step.2 = if machine.config.stepLimit < next.steps then
        some (.fault ⟨.stepLimit machine.config.stepLimit, some pc, some state.steps,
          instruction.location⟩)
      else none

theorem turnAt_shows (machine : Machine) (state : State) (pc : Int) (complete : instruction.Complete)
    (log : Log) (audience : Audience) :
    Shows machine pc instruction state
      (⟨(machine.turnAt pc instruction state).1, log, audience⟩,
        (machine.turnAt pc instruction state).2)
      (outcome machine.config instruction state pc) := by
  have meets := perform_meets machine.config state complete pc
  unfold Machine.turnAt State.carryOut
  cases happens : outcome machine.config instruction state pc with
  | complaint complaint =>
    rw [happens] at meets
    obtain ⟨fault, failed, kind⟩ := meets
    rw [failed]
    exact ⟨rfl, fault, rfl, kind⟩
  | halt =>
    rw [happens] at meets
    rw [show state.perform machine.config pc instruction = .error .halt from meets]
    exact ⟨rfl, rfl⟩
  | next next =>
    rw [happens] at meets
    have counted := State.steps_carryOut (mapError_eq_ok.mpr meets)
    rw [show state.perform machine.config pc instruction = .ok next from meets]
    simp only [mapError_ok, Shows]
    split
    · refine ⟨rfl, ?_⟩
      simp [counted]
    · exact ⟨rfl, rfl⟩

end Spec

end MailRoom
