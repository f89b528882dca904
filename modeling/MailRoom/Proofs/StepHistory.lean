import MailRoom.Proofs.LongerInbox

/-! The instructions that a run carries out, and how it comes to its end behind them. Main
statement: `Program.exists_ends`, by which a program that a text gives carries out so many
instructions and is then left, stuck in front of one more, or over its limit. -/
namespace MailRoom

/-- An instruction that has been carried out. -/
structure Deed where
  pc : Int
  instruction : Instruction
  before : State
  after : State

namespace State

variable {config : Config} {program : Program} {start between next reached : State}
  {pc : Int} {instruction : Instruction} {deeds earlier later : List Deed} {count : Nat}

/-- A program left to itself carries out one instruction after the other. -/
inductive Does (config : Config) (program : Program) : State → List Deed → State → Prop where
  | nothing (state : State) : Does config program state [] state
  | next {state next reached : State} {pc : Int} {instruction : Instruction} {deeds : List Deed}
      (found : program.fetch state = .ok (pc, instruction))
      (carried : state.carryOut config pc instruction = .ok next)
      (rest : Does config program next deeds reached) :
      Does config program state (⟨pc, instruction, state, next⟩ :: deeds) reached

namespace Does

theorem advances (does : start.Does config program deeds reached) :
    start.advance config program deeds.length = .ok reached := by
  induction does with
  | nothing state => rfl
  | next found carried rest ih =>
    exact advance_succ_eq_ok.mpr ⟨_, (next_of_fetched found).trans carried, ih⟩

theorem steps (does : start.Does config program deeds reached) :
    reached.steps = start.steps + deeds.length :=
  steps_advance does.advances

theorem append (first : start.Does config program earlier between)
    (second : between.Does config program later reached) :
    start.Does config program (earlier ++ later) reached := by
  induction first with
  | nothing state => exact second
  | next found carried rest ih => exact .next found carried (ih second)

theorem snoc (does : start.Does config program deeds between)
    (found : program.fetch between = .ok (pc, instruction))
    (carried : between.carryOut config pc instruction = .ok next) :
    start.Does config program (deeds ++ [⟨pc, instruction, between, next⟩]) next :=
  does.append (.next found carried (.nothing next))

theorem split (does : start.Does config program (earlier ++ later) reached) :
    ∃ between, start.Does config program earlier between ∧
      between.Does config program later reached := by
  induction earlier generalizing start with
  | nil => exact ⟨_, .nothing _, does⟩
  | cons deed earlier ih =>
    cases does with
    | next found carried rest =>
      obtain ⟨between, before, behind⟩ := ih rest
      exact ⟨between, .next found carried before, behind⟩

/-- A deed is the instruction to come in the state that the program has reached by then. -/
theorem at_index (does : start.Does config program deeds reached) {index : Nat} {deed : Deed}
    (taken : deeds[index]? = some deed) :
    start.advance config program index = .ok deed.before ∧
      program.fetch deed.before = .ok (deed.pc, deed.instruction) ∧
      deed.before.carryOut config deed.pc deed.instruction = .ok deed.after := by
  induction does generalizing index with
  | nothing state => cases taken
  | next found carried rest ih =>
    cases index with
    | zero =>
      cases taken
      exact ⟨rfl, found, carried⟩
    | succ index =>
      obtain ⟨advanced, coming, done⟩ := ih taken
      exact ⟨advance_succ_eq_ok.mpr ⟨_, (next_of_fetched found).trans carried, advanced⟩, coming,
        done⟩

end Does

theorem exists_does (advanced : start.advance config program count = .ok reached) :
    ∃ deeds, deeds.length = count ∧ start.Does config program deeds reached := by
  induction count generalizing start with
  | zero =>
    cases advanced
    exact ⟨[], rfl, .nothing _⟩
  | succ count ih =>
    obtain ⟨next, moved, rest⟩ := advance_succ_eq_ok.mp advanced
    obtain ⟨pc, instruction, found, _, carried⟩ := next_eq_ok moved
    obtain ⟨deeds, length, does⟩ := ih rest
    exact ⟨⟨pc, instruction, start, next⟩ :: deeds, congrArg (· + 1) length,
      .next found carried does⟩

/-- A fault of an instruction names the instruction and the step, and is not that of a run that is
too long. -/
theorem fault_of_carryOut {state : State} {incident : Incident} (complete : instruction.Complete)
    (failed : state.carryOut config pc instruction = .error (.fault incident)) :
    ∃ cause, incident = ⟨cause, some pc, some state.steps, instruction.location⟩ ∧
      cause.kind ≠ "StepLimitExceeded" := by
  obtain ⟨reason, broken, stopped⟩ := mapError_eq_error.mp failed
  cases reason with
  | halt => cases stopped
  | defect defect => cases stopped
  | fault cause =>
    cases stopped
    obtain ⟨complaint, _, kind⟩ := Spec.outcome_of_fault complete broken
    refine ⟨cause, rfl, ?_⟩
    rw [kind]
    cases complaint <;> decide

theorem not_fault_of_met {state : State} (complete : instruction.Complete)
    (met : Spec.Met config instruction state) (incident : Incident) :
    state.carryOut config pc instruction ≠ .error (.fault incident) := by
  intro failed
  obtain ⟨reason, broken, stopped⟩ := mapError_eq_error.mp failed
  cases reason with
  | halt => cases stopped
  | defect defect => cases stopped
  | fault cause =>
    obtain ⟨complaint, happens, _⟩ := Spec.outcome_of_fault complete broken
    simp only [Spec.outcome, Spec.settled, List.findSome?_eq_none_iff.mpr met] at happens
    split at happens <;> cases happens

end State

/-- How a run that nothing but its program and its limit stops comes to its end behind its deeds:
with or without one more instruction attempted, with or without an error. -/
inductive Machine.Ends (machine : Machine) (deeds : List Deed) (reached : State) :
    Option (Int × Instruction) → Option Incident → Prop where
  /-- The program is left behind its last instruction, or for lack of one. -/
  | left (within : deeds.length ≤ machine.config.stepLimit)
      (gone : machine.program.fetch reached = .error .halt) : Ends machine deeds reached none none
  /-- An instruction takes from the inbox where nothing is left in it. -/
  | dry {pc : Int} {instruction : Instruction} (within : deeds.length ≤ machine.config.stepLimit)
      (found : machine.program.fetch reached = .ok (pc, instruction))
      (takes : instruction.opcode = .inbox) (dry : reached.inbox.length ≤ reached.cursor)
      (halted : reached.carryOut machine.config pc instruction = .error .halt) :
      Ends machine deeds reached (some (pc, instruction)) none
  /-- An instruction fails. -/
  | fault {pc : Int} {instruction : Instruction} {cause : Fault}
      (within : deeds.length ≤ machine.config.stepLimit)
      (found : machine.program.fetch reached = .ok (pc, instruction))
      (failed : reached.carryOut machine.config pc instruction =
        .error (.fault ⟨cause, some pc, some reached.steps, instruction.location⟩))
      (other : cause.kind ≠ "StepLimitExceeded") :
      Ends machine deeds reached (some (pc, instruction))
        (some ⟨cause, some pc, some reached.steps, instruction.location⟩)
  /-- The last deed was one too many, whatever would have come behind it. -/
  | limit {earlier : List Deed} {deed : Deed} (split : deeds = earlier ++ [deed])
      (full : earlier.length = machine.config.stepLimit) :
      Ends machine deeds reached none
        (some ⟨.stepLimit machine.config.stepLimit, some deed.pc, some machine.config.stepLimit,
          deed.instruction.location⟩)

/-- What is attempted in vain is the instruction to come. -/
theorem Machine.Ends.fetch_attempt {machine : Machine} {deeds : List Deed} {reached : State}
    {place : Int × Instruction} {error : Option Incident}
    (ends : machine.Ends deeds reached (some place) error) :
    machine.program.fetch reached = .ok place := by
  cases ends with
  | dry within found takes dry halted => exact found
  | fault within found failed other => exact found

namespace Program

variable {machine : Machine} {start reached : State} {deeds : List Deed} {reason : Stop}

/-- From a state in order there is an instruction to come, unless the program is over. -/
theorem fetch_cases {program : Program} {state : State} (sound : state.Sound program) :
    program.fetch state = .error .halt ∨
      ∃ pc instruction, program.fetch state = .ok (pc, instruction) := by
  obtain ⟨pc, coming, natural, _⟩ := sound.pc
  cases there : program.instructions[pc.toNat]? with
  | none => exact .inl (by simp [fetch, coming, Int.not_lt.mpr natural, there])
  | some instruction =>
    exact .inr ⟨pc, instruction, by simp [fetch, coming, Int.not_lt.mpr natural, there]⟩

/-- A program that stops within the limit has been left, or is stuck in front of an instruction. -/
theorem ends_of_stopped (formed : machine.program.Formed) (sound : reached.Sound machine.program)
    (within : deeds.length ≤ machine.config.stepLimit)
    (stopped : reached.next machine.config machine.program = .error reason) :
    ∃ attempt error, machine.Ends deeds reached attempt error := by
  have ordinary : reason.Ordinary :=
    (Machine.turn_sound formed sound).2 reason (congrArg Prod.snd (Machine.turn_of_error stopped))
  rcases fetch_cases sound with gone | ⟨pc, instruction, found⟩
  · exact ⟨_, _, .left within gone⟩
  · have failed := (State.next_of_fetched found).symm.trans stopped
    cases ordinary with
    | halt =>
      rcases halts_cases formed stopped with gone | ⟨_, _, same, takes, dry⟩
      · cases found.symm.trans gone
      · cases found.symm.trans same
        exact ⟨_, _, .dry within found takes dry failed⟩
    | fault usual =>
      obtain ⟨cause, rfl, other⟩ := State.fault_of_carryOut
        (formed instruction (State.mem_of_fetch found)).complete failed
      exact ⟨_, _, .fault within found failed other⟩

theorem next_sound {config : Config} {program : Program} {state next : State}
    (formed : program.Formed) (sound : state.Sound program)
    (moved : state.next config program = .ok next) : next.Sound program := by
  have kept := (@Machine.turn_sound ⟨program, config, false, none⟩ state formed sound).1
  rwa [Machine.turn_of_next moved] at kept

theorem advance_sound {config : Config} {program : Program} {state reached : State} {count : Nat}
    (formed : program.Formed) (sound : state.Sound program)
    (advanced : state.advance config program count = .ok reached) : reached.Sound program := by
  induction count generalizing state with
  | zero =>
    cases advanced
    exact sound
  | succ count ih =>
    obtain ⟨next, moved, rest⟩ := State.advance_succ_eq_ok.mp advanced
    exact ih (next_sound formed sound moved) rest

theorem exists_ends (formed : machine.program.Formed) (sound : start.Sound machine.program) :
    ∃ deeds reached attempt error, start.Does machine.config machine.program deeds reached ∧
      machine.Ends deeds reached attempt error := by
  rcases State.stops_or_goes_on machine.config machine.program machine.config.stepLimit start with
    ⟨count, within, reached, reason, stops⟩ | ⟨before, reached, advanced, further⟩
  · obtain ⟨deeds, rfl, does⟩ := State.exists_does stops.advanced
    obtain ⟨attempt, error, ends⟩ :=
      ends_of_stopped formed (advance_sound formed sound stops.advanced) within stops.stopped
    exact ⟨deeds, reached, attempt, error, does, ends⟩
  · obtain ⟨earlier, full, does⟩ := State.exists_does advanced
    obtain ⟨pc, instruction, found, _, carried⟩ := State.next_eq_ok further
    exact ⟨_, reached, _, _, does.snoc found carried, .limit rfl full⟩

end Program

end MailRoom
