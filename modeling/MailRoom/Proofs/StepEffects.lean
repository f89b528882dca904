import MailRoom.Proofs.Limit

/-! What a step leaves behind, read off the specification. Main statements: `State.next_meets`, by
which a step that comes about is an instruction whose demands are met, and `State.outbox_next`, by
which the outbox grows at its end and in no other way. -/
namespace MailRoom

namespace Spec

variable {config : Config} {instruction : Instruction} {state next : State} {pc : Int}

theorem outcome_of_performed (complete : instruction.Complete)
    (performed : state.perform config pc instruction = .ok next) :
    outcome config instruction state pc = .next next := by
  have meets := perform_meets config state complete pc
  rw [performed] at meets
  exact meets_ok.mp meets

/-- Only an instruction that takes from the inbox halts, and only when nothing is left there. -/
theorem outcome_of_halted (complete : instruction.Complete)
    (halted : state.perform config pc instruction = .error .halt) :
    outcome config instruction state pc = .halt := by
  have meets := perform_meets config state complete pc
  rw [halted] at meets
  exact meets_halt.mp meets

theorem outcome_of_fault (complete : instruction.Complete) {cause : Fault}
    (failed : state.perform config pc instruction = .error (.fault cause)) :
    ∃ complaint, outcome config instruction state pc = .complaint complaint ∧
      cause.kind = complaint.kind := by
  have meets := perform_meets config state complete pc
  rw [failed] at meets
  cases happens : outcome config instruction state pc with
  | complaint complaint =>
    rw [happens] at meets
    obtain ⟨_, same, kind⟩ := meets
    cases same
    exact ⟨complaint, rfl, kind⟩
  | halt => simp [happens, Meets] at meets
  | next next => simp [happens, Meets] at meets

/-- What is in the outbox stays there, in its place. -/
theorem outbox_after (instruction : Instruction) (state : State) (pc : Int) :
    state.outbox <+: (after instruction state pc).outbox := by
  simp only [after]
  split
  · exact List.prefix_append _ _
  · exact List.prefix_refl _

end Spec

theorem Break.toStop_eq_halt {reason : Break} {pc : Int} {step : Nat} {location : Option Location} :
    reason.toStop pc step location = .halt ↔ reason = .halt := by
  cases reason <;> simp [toStop]

namespace State

variable {config : Config} {program : Program} {state next : State}

theorem mem_of_fetch {pc : Int} {instruction : Instruction}
    (found : program.fetch state = .ok (pc, instruction)) : instruction ∈ program.instructions :=
  List.mem_of_getElem? (Program.fetch_eq_ok found).2.2

/-- What a program carries out meets the specification. -/
theorem outcome_of_carried (formed : program.Formed) {pc : Int} {instruction : Instruction}
    (found : program.fetch state = .ok (pc, instruction))
    (carried : state.carryOut config pc instruction = .ok next) :
    Spec.outcome config instruction state pc = .next next :=
  Spec.outcome_of_performed (formed instruction (mem_of_fetch found)).complete
    (mapError_eq_ok.mp carried)

theorem next_meets (formed : program.Formed) (moved : state.next config program = .ok next) :
    ∃ pc, ∃ instruction ∈ program.instructions, state.pc = some pc ∧
      Spec.outcome config instruction state pc = .next next := by
  obtain ⟨pc, instruction, found, coming, carried⟩ := next_eq_ok moved
  exact ⟨pc, instruction, mem_of_fetch found, coming, outcome_of_carried formed found carried⟩

theorem outbox_next (formed : program.Formed) (moved : state.next config program = .ok next) :
    state.outbox <+: next.outbox := by
  obtain ⟨pc, instruction, _, _, happens⟩ := next_meets formed moved
  obtain ⟨_, _, rfl⟩ := Spec.outcome_eq_next.mp happens
  exact Spec.outbox_after instruction state pc

end State

end MailRoom
