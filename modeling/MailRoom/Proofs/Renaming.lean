import MailRoom.Proofs.Lockstep
import MailRoom.Proofs.Safety

/-! Letters under other names. A program passes letters on and tells them from numbers, but never
looks at which letter it is. Main statements: `Machine.turn_renamed`, by which a turn on renamed
letters is the turn with its letters renamed, and `Program.letters_opaque`, the same of whole
runs. -/
namespace MailRoom

/-- Both outcomes of a chain put in other words. -/
def translated (onError : ε → δ) (onValue : α → β) : Except ε α → Except δ β
  | .ok value => .ok (onValue value)
  | .error failure => .error (onError failure)

section Translated

variable {onError : ε → δ} {onValue : α → β} {onResult : α' → β'}

theorem translated_bind {first : Except ε α} {rest : α → Except ε α'} {rest' : β → Except δ β'}
    (each : ∀ value, rest' (onValue value) = translated onError onResult (rest value)) :
    translated onError onValue first >>= rest' =
      translated onError onResult (first >>= rest) := by
  cases first with
  | ok value => exact each value
  | error failure => rfl

theorem translated_map {first : Except ε α} {change : α → α'} {change' : β → β'}
    (each : ∀ value, change' (onValue value) = onResult (change value)) :
    (translated onError onValue first).map change' =
      translated onError onResult (first.map change) := by
  cases first with
  | ok value => exact congrArg Except.ok (each value)
  | error failure => rfl

theorem translated_mapError {first : Except ε α} {report : ε → ε'} {report' : δ → δ'}
    {onReport : ε' → δ'} (each : ∀ failure, report' (onError failure) = onReport (report failure)) :
    (translated onError onValue first).mapError report' =
      translated onReport onValue (first.mapError report) := by
  cases first with
  | ok value => rfl
  | error failure => exact congrArg Except.error (each failure)

theorem translated_mapM {items : List γ} {step : γ → Except ε α} {change : γ → γ'}
    {step' : γ' → Except δ β}
    (each : ∀ item, step' (change item) = translated onError onValue (step item)) :
    (items.map change).mapM step' = translated onError (List.map onValue) (items.mapM step) := by
  induction items with
  | nil => rfl
  | cons item rest ih =>
    simp only [List.map_cons, List.mapM_cons, each, ih]
    exact translated_bind fun _ => translated_bind fun _ => rfl

end Translated

/-! The same things with every letter under its other name. -/

def Value.renamed (rename : Char → Char) : Value → Value
  | number value => .number value
  | letter char => .letter (rename char)

def Floor.renamed (rename : Char → Char) (floor : Floor) : Floor :=
  ⟨floor.tiles.map (Option.map (Value.renamed rename))⟩

def State.renamed (rename : Char → Char) (state : State) : State :=
  { state with
    hands := state.hands.map (Value.renamed rename)
    floor := state.floor.renamed rename
    inbox := state.inbox.map (Value.renamed rename)
    outbox := state.outbox.map (Value.renamed rename) }

def Fault.renamed (rename : Char → Char) : Fault → Fault
  | pointerLetter tile char => .pointerLetter tile (rename char)
  | testsNumber rule char => .testsNumber rule (rename char)
  | other => other

def Break.renamed (rename : Char → Char) : Break → Break
  | fault cause => .fault (cause.renamed rename)
  | other => other

def Incident.renamed (rename : Char → Char) (incident : Incident) : Incident :=
  { incident with fault := incident.fault.renamed rename }

def Stop.renamed (rename : Char → Char) : Stop → Stop
  | fault incident => .fault (incident.renamed rename)
  | other => other

def Verdict.renamed (rename : Char → Char) (verdict : Verdict) : Verdict :=
  { verdict with error := verdict.error.map (Incident.renamed rename) }

def LayoutError.renamed (rename : Char → Char) : LayoutError → LayoutError
  | tile fault => .tile (fault.renamed rename)
  | other => other

def StartError.renamed (rename : Char → Char) : StartError → StartError
  | floor error => .floor (error.renamed rename)
  | other => other

/-- A document of a letter becomes that of its other name; all others say the same as before. -/
def Json.renamed (rename : Char → Char) : Json → Json
  | text [.scalar char] => .text [.scalar (rename char)]
  | other => other

section Renamed

variable (rename : Char → Char)

@[simp] theorem Fault.kind_renamed (fault : Fault) : (fault.renamed rename).kind = fault.kind := by
  cases fault <;> rfl

namespace Floor

variable (floor : Floor)

@[simp] theorem size_renamed : (floor.renamed rename).size = floor.size := by
  simp [size, renamed]

/-- The same tile of the floor with its letters renamed. -/
abbrev tileRenamed (tile : Fin floor.size) : Fin (floor.renamed rename).size :=
  tile.cast (floor.size_renamed rename).symm

theorem place_renamed (tile : Int) : (floor.renamed rename).place tile =
    translated (Fault.renamed rename) (floor.tileRenamed rename) (floor.place tile) := by
  unfold place
  by_cases inside : 0 ≤ tile ∧ tile < floor.size
  · simp only [size_renamed, dif_pos inside]
    rfl
  · simp only [size_renamed, dif_neg inside]
    rfl

theorem get_renamed (tile : Fin floor.size) :
    (floor.renamed rename).get (floor.tileRenamed rename tile) =
      (floor.get tile).map (Value.renamed rename) :=
  Array.getElem_map _ _

theorem set_renamed (tile : Fin floor.size) (value : Value) :
    (floor.renamed rename).set (floor.tileRenamed rename tile) (value.renamed rename) =
      (floor.set tile value).renamed rename := by
  simp [set, renamed]

theorem peek_renamed (tile : Int) : (floor.renamed rename).peek tile =
    translated (Fault.renamed rename) (Option.map (Value.renamed rename)) (floor.peek tile) := by
  rw [peek, place_renamed]
  exact translated_map (floor.get_renamed rename)

/-- An address leads to the same tile: a letter is no pointer, whichever letter it is. -/
theorem resolve_renamed (address : Address) : (floor.renamed rename).resolve address =
    translated (Fault.renamed rename) (floor.tileRenamed rename) (floor.resolve address) := by
  unfold resolve
  by_cases indirect : address.indirect = true
  · simp only [indirect, if_true, peek_renamed]
    refine translated_bind fun pointer => ?_
    rcases pointer with _ | value | char
    · rfl
    · exact floor.place_renamed rename value.val
    · rfl
  · simp only [indirect, if_false, place_renamed, Bool.false_eq_true]

theorem readAt_renamed (tile : Fin floor.size) :
    (floor.renamed rename).readAt (floor.tileRenamed rename tile) =
      translated (Fault.renamed rename) (Value.renamed rename) (floor.readAt tile) := by
  unfold readAt
  rw [get_renamed]
  cases floor.get tile <;> rfl

end Floor

theorem Break.ofFault_renamed {onValue : α → β} (result : Except Fault α) :
    Break.ofFault (translated (Fault.renamed rename) onValue result) =
      translated (Break.renamed rename) onValue (Break.ofFault result) :=
  translated_mapError fun _ => rfl

theorem Instruction.operandTile_renamed (instruction : Instruction) (floor : Floor) :
    instruction.operandTile (floor.renamed rename) =
      translated (Break.renamed rename) (floor.tileRenamed rename)
        (instruction.operandTile floor) := by
  unfold operandTile
  cases instruction.address with
  | none => rfl
  | some address =>
    simp only [Floor.resolve_renamed]
    exact Break.ofFault_renamed rename _

/-! Arithmetic works on the numbers and refuses letters by their kind. -/

theorem Value.operands_renamed (rule : Opcode) (left right : Value) :
    operands rule (left.renamed rename) (right.renamed rename) =
      translated (Fault.renamed rename) id (operands rule left right) := by
  cases left <;> cases right <;> rfl

theorem Within.check_renamed (rule : Opcode) (bound result : Int) :
    check rule bound result = translated (Fault.renamed rename) id (check rule bound result) := by
  unfold check
  split <;> rfl

theorem Value.add_renamed (bound : Int) (left right : Value) :
    add bound (left.renamed rename) (right.renamed rename) =
      translated (Fault.renamed rename) id (add bound left right) := by
  rw [add, operands_renamed]
  exact translated_bind fun _ => Within.check_renamed rename _ _ _

theorem Value.sub_renamed (bound : Int) (left right : Value) :
    sub bound (left.renamed rename) (right.renamed rename) =
      translated (Fault.renamed rename) id (sub bound left right) := by
  rw [sub, operands_renamed]
  exact translated_bind fun _ => Within.check_renamed rename _ _ _

theorem Value.bump_renamed (bound delta : Int) (value : Value) :
    (value.renamed rename).bump bound delta =
      translated (Fault.renamed rename) id (value.bump bound delta) := by
  cases value with
  | number value => exact Within.check_renamed rename _ _ _
  | letter char => rfl

namespace State

variable (state : State)

theorem requireHands_renamed (rule : Opcode) : (state.renamed rename).requireHands rule =
    translated (Break.renamed rename) (Value.renamed rename) (state.requireHands rule) := by
  unfold requireHands
  simp only [renamed]
  cases state.hands <;> rfl

theorem requireNumber_renamed (rule : Opcode) : (state.renamed rename).requireNumber rule =
    translated (Break.renamed rename) id (state.requireNumber rule) := by
  rw [requireNumber, requireHands_renamed]
  refine translated_bind fun value => ?_
  cases value <;> rfl

theorem requireInbox_renamed : (state.renamed rename).requireInbox =
    translated (Break.renamed rename) (Value.renamed rename) state.requireInbox := by
  unfold requireInbox
  simp only [renamed, List.getElem?_map]
  cases state.inbox[state.cursor]? <;> rfl

end State

namespace Action

/-- An action does the same to renamed letters. -/
def Blind (action : Action α) : Prop :=
  ∀ state : State, action.outcome (state.renamed rename) =
    translated (Break.renamed rename) (Prod.map id (State.renamed rename)) (action.outcome state)

variable (config : Config) (instruction : Instruction)

theorem blind_takeFromInbox : takeFromInbox.Blind rename := by
  intro state
  rw [outcome_takeFromInbox, outcome_takeFromInbox, State.requireInbox_renamed]
  exact translated_bind fun value => rfl

theorem blind_putInOutbox : putInOutbox.Blind rename := by
  intro state
  rw [outcome_putInOutbox, outcome_putInOutbox, State.requireHands_renamed]
  refine translated_bind fun value => ?_
  simp [State.renamed, translated, pure, Except.pure]

theorem blind_copyFrom : (copyFrom instruction).Blind rename := by
  intro state
  simp only [outcome_copyFrom, State.renamed]
  rw [Instruction.operandTile_renamed]
  refine translated_bind fun tile => ?_
  rw [Floor.readAt_renamed, Break.ofFault_renamed]
  exact translated_bind fun value => rfl

theorem blind_copyTo : (copyTo instruction).Blind rename := by
  intro state
  rw [outcome_copyTo, outcome_copyTo, State.requireHands_renamed]
  refine translated_bind fun value => ?_
  simp only [State.renamed]
  rw [Instruction.operandTile_renamed]
  refine translated_bind fun tile => ?_
  rw [Floor.set_renamed]
  rfl

theorem blind_combine (rule : Opcode)
    {operation : Value → Value → Except Fault (Within config.numberBound)}
    (blind : ∀ left right, operation (left.renamed rename) (right.renamed rename) =
      translated (Fault.renamed rename) id (operation left right)) :
    (combine config rule operation instruction).Blind rename := by
  intro state
  rw [outcome_combine, outcome_combine, State.requireHands_renamed]
  refine translated_bind fun hands => ?_
  simp only [State.renamed]
  rw [Instruction.operandTile_renamed]
  refine translated_bind fun tile => ?_
  rw [Floor.readAt_renamed, Break.ofFault_renamed]
  refine translated_bind fun value => ?_
  rw [blind, Break.ofFault_renamed]
  exact translated_bind fun result => rfl

theorem blind_bump (delta : Int) : (bump config delta instruction).Blind rename := by
  intro state
  simp only [outcome_bump, State.renamed]
  rw [Instruction.operandTile_renamed]
  refine translated_bind fun tile => ?_
  rw [Floor.readAt_renamed, Break.ofFault_renamed]
  refine translated_bind fun value => ?_
  rw [Value.bump_renamed, Break.ofFault_renamed]
  refine translated_bind fun result => ?_
  have laid := state.floor.set_renamed rename tile
    (.number (result.toNumber config.bound_le))
  simp only [Value.renamed, id] at laid ⊢
  rw [laid]
  rfl

theorem blind_jumpIf (rule : Opcode) (condition : Int → Bool) :
    (jumpIf rule condition instruction).Blind rename := by
  intro state
  rw [outcome_jumpIf, outcome_jumpIf, State.requireNumber_renamed]
  exact translated_map fun _ => rfl

/-- An instruction does the same to renamed letters, and goes on at the same place. -/
theorem blind_handle : (handle config instruction).Blind rename := by
  unfold handle
  split
  · exact blind_takeFromInbox rename
  · exact blind_putInOutbox rename
  · exact blind_copyFrom rename instruction
  · exact blind_copyTo rename instruction
  · exact blind_combine rename config instruction .add (Value.add_renamed rename _)
  · exact blind_combine rename config instruction .sub (Value.sub_renamed rename _)
  · exact blind_bump rename config instruction 1
  · exact blind_bump rename config instruction (-1)
  · exact fun state => rfl
  · exact blind_jumpIf rename instruction .jumpIfZero _
  · exact blind_jumpIf rename instruction .jumpIfNegative _
  · exact fun state => rfl

end Action

namespace State

variable (config : Config) (pc : Int) (instruction : Instruction) (state : State)

theorem perform_renamed : (state.renamed rename).perform config pc instruction =
    translated (Break.renamed rename) (State.renamed rename)
      (state.perform config pc instruction) := by
  rw [perform_eq, perform_eq, Action.blind_handle]
  exact translated_map fun _ => rfl

theorem carryOut_renamed : (state.renamed rename).carryOut config pc instruction =
    translated (Stop.renamed rename) (State.renamed rename)
      (state.carryOut config pc instruction) := by
  rw [carryOut, perform_renamed]
  refine translated_mapError fun reason => ?_
  cases reason <;> rfl

end State

theorem Program.fetch_renamed (program : Program) (state : State) :
    program.fetch (state.renamed rename) =
      translated (Stop.renamed rename) id (program.fetch state) := by
  unfold fetch
  simp only [State.renamed]
  cases state.pc with
  | none => rfl
  | some pc =>
    simp only
    split
    · rfl
    · cases program.instructions[pc.toNat]? <;> rfl

theorem Machine.turn_renamed (machine : Machine) (state : State) :
    machine.turn (state.renamed rename) =
      Prod.map (State.renamed rename) (Option.map (Stop.renamed rename)) (machine.turn state) := by
  unfold turn
  rw [Program.fetch_renamed]
  cases machine.program.fetch state with
  | error reason => rfl
  | ok place =>
    obtain ⟨pc, instruction⟩ := place
    simp only [translated, id, turnAt, State.carryOut_renamed]
    cases state.carryOut machine.config pc instruction with
    | error reason => rfl
    | ok next =>
      simp only [show (next.renamed rename).steps = next.steps from rfl]
      split <;> rfl

theorem Machine.inStep_renamed (machine : Machine) :
    machine.InStep machine (fun state other => other = state.renamed rename)
      (fun reason other => other = reason.renamed rename) where
  states := by
    rintro state _ rfl
    rw [turn_renamed]
    rfl
  stops := by
    rintro state _ rfl
    rw [turn_renamed, Prod.map_snd]
    cases (machine.turn state).2 with
    | none => exact .none
    | some reason => exact .some rfl

theorem Stop.verdict_renamed (reason : Stop) (steps : Nat) :
    (reason.renamed rename).verdict steps =
      translated (Stop.renamed rename) (Verdict.renamed rename) (reason.verdict steps) := by
  cases reason <;> rfl

/-- A run on renamed letters is the run with its letters renamed, its end and verdict included. -/
theorem Session.execute_of_renamed (machine : Machine) (state : State) :
    ((machine.session .empty (state.renamed rename)).execute machine).1.state =
        ((machine.session .empty state).execute machine).1.state.renamed rename ∧
      ((machine.session .empty (state.renamed rename)).execute machine).2 =
        translated (Stop.renamed rename) (Verdict.renamed rename)
          ((machine.session .empty state).execute machine).2 := by
  obtain ⟨last, last', reason, _, executed, executed', same, rfl⟩ :=
    execute_in_step (machine.inStep_renamed rename) (Eq.refl (state.renamed rename))
  rw [executed, executed', same]
  exact ⟨rfl, Stop.verdict_renamed rename _ _⟩

/-! Starts on renamed documents. -/

theorem Value.ofJson_renamed (raw : Json) : ofJson (raw.renamed rename) =
    translated id (Value.renamed rename) (ofJson raw) := by
  cases raw with
  | int value =>
    simp only [Json.renamed, ofJson, ofInt]
    cases Number.ofInt? value <;> rfl
  | text value =>
    match value with
    | [] => rfl
    | [.scalar char] => rfl
    | [.surrogate offset] => rfl
    | .scalar _ :: _ :: _ => rfl
    | .surrogate _ :: _ :: _ => rfl
  | _ => rfl

theorem Floor.write_renamed (floor : Floor) (tile : Int) (value : Value) :
    (floor.renamed rename).write tile (value.renamed rename) =
      translated (Fault.renamed rename) (Floor.renamed rename) (floor.write tile value) := by
  rw [write, place_renamed]
  exact translated_map fun tile => floor.set_renamed rename tile value

theorem Floor.writeAll_renamed (layout : List (Int × Value)) (floor : Floor) :
    (floor.renamed rename).writeAll (layout.map (Prod.map id (Value.renamed rename))) =
      translated (Fault.renamed rename) (Floor.renamed rename) (floor.writeAll layout) := by
  unfold writeAll
  induction layout generalizing floor with
  | nil => rfl
  | cons entry rest ih =>
    simp only [List.map_cons, List.foldlM_cons, Prod.map_fst, Prod.map_snd, id, write_renamed]
    exact translated_bind ih

theorem Floor.ofSize_renamed (room : Nat) (size : Int) :
    (ofSize room size).mapError LayoutError.size =
      translated (LayoutError.renamed rename) (Floor.renamed rename)
        ((ofSize room size).mapError .size) := by
  have bare (count : Nat) : renamed rename ⟨Array.replicate count none⟩ =
      ⟨Array.replicate count none⟩ := by simp [renamed]
  unfold ofSize
  repeat' split
  all_goals simp [translated, mapError_ok, mapError_error, LayoutError.renamed, bare]

theorem Floor.layOut_renamed (room : Nat) (size : Int) (layout : List (Int × Value)) :
    layOut room size (layout.map (Prod.map id (Value.renamed rename))) =
      translated (LayoutError.renamed rename) (Floor.renamed rename) (layOut room size layout) := by
  conv_lhs => rw [layOut, ofSize_renamed rename]
  refine translated_bind fun floor => ?_
  rw [writeAll_renamed]
  exact translated_mapError fun _ => rfl

theorem State.ofJson_renamed (room : Nat) (config : Config) (layout : List (Int × Json))
    (inbox : List Json) :
    ofJson room config (layout.map (Prod.map id (Json.renamed rename)))
        (inbox.map (Json.renamed rename)) =
      translated (StartError.renamed rename) (State.renamed rename)
        (ofJson room config layout inbox) := by
  have entries : (layout.map (Prod.map id (Json.renamed rename))).mapM entryOfJson =
      translated (StartError.renamed rename) (List.map (Prod.map id (Value.renamed rename)))
        (layout.mapM entryOfJson) := by
    refine translated_mapM fun entry => ?_
    simp only [entryOfJson, Prod.map_fst, Prod.map_snd, id, Value.ofJson_renamed]
    cases Value.ofJson entry.2 <;> rfl
  have taken : (inbox.map (Json.renamed rename)).mapM
      (fun raw => (Value.ofJson raw).mapError StartError.value) =
      translated (StartError.renamed rename) (List.map (Value.renamed rename))
        (inbox.mapM fun raw => (Value.ofJson raw).mapError StartError.value) := by
    refine translated_mapM fun raw => ?_
    rw [Value.ofJson_renamed]
    exact translated_mapError fun _ => rfl
  have laid (values : List (Int × Value)) :
      (Floor.layOut room config.floorSize (values.map (Prod.map id (Value.renamed rename)))).mapError
        StartError.floor =
      translated (StartError.renamed rename) (Floor.renamed rename)
        ((Floor.layOut room config.floorSize values).mapError StartError.floor) := by
    rw [Floor.layOut_renamed]
    exact translated_mapError fun _ => rfl
  rw [ofJson_eq, ofJson_eq, entries, taken]
  refine translated_bind fun values => ?_
  rw [laid]
  exact translated_bind fun floor => translated_bind fun inbox => rfl

end Renamed

def Incident.outline (incident : Incident) : String × Option Int × Option Int :=
  (incident.fault.kind, incident.instruction, incident.step)

theorem Incident.outline_renamed (rename : Char → Char) (incident : Incident) :
    (incident.renamed rename).outline = incident.outline := by
  simp [outline, renamed]

/-- A program that a text gives cannot look at letters: under any other names for them, be they
different or not, it starts as before, puts the same letters under their other names into the outbox
and comes to the same verdict. -/
theorem Program.letters_opaque {file text : String} {mnemonics : Mnemonics} {machine : Machine}
    (parsed : Program.parse file text mnemonics = .ok machine.program)
    {room : Nat} {layout : List (Int × Json)} {inbox : List Json} {start : State}
    (started : State.ofJson room machine.config layout inbox = .ok start) (rename : Char → Char) :
    ∃ start' last last' verdict verdict',
      State.ofJson room machine.config (layout.map (Prod.map id (Json.renamed rename)))
        (inbox.map (Json.renamed rename)) = .ok start' ∧
      (machine.session .empty start).execute machine = (last, .ok verdict) ∧
      (machine.session .empty start').execute machine = (last', .ok verdict') ∧
      last'.state.outbox = last.state.outbox.map (Value.renamed rename) ∧
      verdict'.status = verdict.status ∧ verdict'.steps = verdict.steps ∧
      verdict'.error.map Incident.outline = verdict.error.map Incident.outline := by
  obtain ⟨sound, _⟩ := State.ofJson_sound started machine.program
  obtain ⟨_, last, _, verdict, _, _, executed⟩ := exists_judged_run parsed sound
  obtain ⟨states, results⟩ := Session.execute_of_renamed rename machine start
  rw [executed] at states results
  have started' := State.ofJson_renamed rename room machine.config layout inbox
  rw [started] at started'
  refine ⟨start.renamed rename, last, _, verdict, verdict.renamed rename, started', executed,
    Prod.ext rfl results, ?_, ?_, rfl, ?_⟩
  · rw [states]
    rfl
  · cases error : verdict.error <;> simp [Verdict.status, Verdict.renamed, error]
  · simp only [Verdict.renamed, Option.map_map]
    exact congrArg (verdict.error.map ·) (funext (Incident.outline_renamed rename))

/-- A program that takes a letter for a pointer, after it has passed it on. -/
private def misled : Program where
  instructions := [⟨.inbox, none, none, none, some ⟨"", 1, 1, "INBOX"⟩⟩,
    ⟨.outbox, none, none, none, some ⟨"", 2, 1, "OUTBOX"⟩⟩,
    ⟨.copyTo, some ⟨0, false⟩, none, none, some ⟨"", 3, 1, "COPYTO 0"⟩⟩,
    ⟨.bumpUp, some ⟨0, true⟩, none, none, some ⟨"", 4, 1, "BUMPUP [0]"⟩⟩]
  labels := .empty
  markers := []
  definitions := []
  location := some ⟨"", 4, 11, "BUMPUP [0]"⟩

/-- The letter is passed on and then refused as a pointer, under its own name and under the one that
it has to share with all others. -/
theorem Program.letters_opaque_pointer :
    ∃ machine : Machine,
      Program.parse "" "INBOX\nOUTBOX\nCOPYTO 0\nBUMPUP [0]" .standard = .ok machine.program ∧
      ∃ start start' last last' verdict verdict',
        State.ofJson 9 machine.config [(1, .int 7)] [.text [.scalar 'x']] = .ok start ∧
        State.ofJson 9 machine.config [(1, .int 7)] [.text [.scalar 'z']] = .ok start' ∧
        (machine.session .empty start).execute machine = (last, .ok verdict) ∧
        (machine.session .empty start').execute machine = (last', .ok verdict') ∧
        last.state.outbox = [.letter 'x'] ∧ last'.state.outbox = [.letter 'z'] ∧
        verdict.error.map Incident.outline = some ("InvalidAddress", some 3, some 3) ∧
        verdict'.error.map Incident.outline = some ("InvalidAddress", some 3, some 3) := by
  let machine : Machine := ⟨misled, ⟨2, 999, 10, by decide, by decide⟩, false, none⟩
  have parsed : Program.parse "" "INBOX\nOUTBOX\nCOPYTO 0\nBUMPUP [0]" .standard =
      .ok machine.program := toOption_eq_some.mp (by decide +kernel)
  have started : State.ofJson 9 machine.config [(1, .int 7)] [.text [.scalar 'x']] =
      .ok (.initial ⟨#[none, some (.number ⟨7, by decide, by decide⟩)]⟩ [.letter 'x']) := rfl
  obtain ⟨start', last, last', verdict, verdict', started', executed, executed', outbox, _, _,
    errors⟩ := letters_opaque parsed started fun _ => 'z'
  have passedOn : last.state.outbox = [.letter 'x'] := by
    rw [← congrArg (·.1.state.outbox) executed]
    decide +kernel
  have refused : verdict.error.map Incident.outline = some ("InvalidAddress", some 3, some 3) := by
    have judged := congrArg (·.2.toOption.map fun verdict =>
      verdict.error.map Incident.outline) executed
    exact Option.some.inj (judged.symm.trans (by decide +kernel))
  refine ⟨machine, parsed, _, start', last, last', verdict, verdict', started, started', executed,
    executed', passedOn, ?_, refused, errors.trans refused⟩
  rw [outbox, passedOn]
  rfl

end MailRoom
