import MailRoom.Proofs.Outcome
import MailRoom.Proofs.UnwatchedSessions

/-! One turn of a machine against one step of its program that knows no limit. Main statement:
`Machine.turn_eq_some`, by which a turn is stopped by what stops the program or by the step limit,
and by nothing else. -/
namespace MailRoom

theorem Program.fetch_eq_ok {program : Program} {state : State} {pc : Int}
    {instruction : Instruction} (found : program.fetch state = .ok (pc, instruction)) :
    state.pc = some pc ∧ 0 ≤ pc ∧ program.instructions[pc.toNat]? = some instruction := by
  unfold fetch at found
  cases coming : state.pc with
  | none => simp [coming] at found
  | some index =>
    simp only [coming] at found
    by_cases negative : index < 0
    · simp [negative] at found
    · cases there : program.instructions[index.toNat]? with
      | none => simp [negative, there] at found
      | some other =>
        simp only [negative, if_false, there, Except.ok.injEq, Prod.mk.injEq] at found
        obtain ⟨rfl, rfl⟩ := found
        exact ⟨rfl, by omega, there⟩

namespace State

variable {config : Config} {program : Program} {state next : State}

theorem next_of_fetched {pc : Int} {instruction : Instruction}
    (found : program.fetch state = .ok (pc, instruction)) :
    state.next config program = state.carryOut config pc instruction := by
  simp only [next, found, bind, Except.bind]

theorem next_of_unfetched {reason : Stop} (missing : program.fetch state = .error reason) :
    state.next config program = .error reason := by
  simp only [next, missing, bind, Except.bind]

theorem next_eq_ok (moved : state.next config program = .ok next) :
    ∃ pc instruction, program.fetch state = .ok (pc, instruction) ∧ state.pc = some pc ∧
      state.carryOut config pc instruction = .ok next := by
  obtain ⟨⟨pc, instruction⟩, found, carried⟩ := bind_eq_ok.mp moved
  exact ⟨pc, instruction, found, (Program.fetch_eq_ok found).1, carried⟩

theorem steps_next (moved : state.next config program = .ok next) :
    next.steps = state.steps + 1 := by
  obtain ⟨_, _, _, _, carried⟩ := next_eq_ok moved
  exact steps_carryOut carried

end State

namespace Machine

variable {machine : Machine} {state next after : State} {reason : Stop}

/-- What stops the program stops the turn, before anything has changed. -/
theorem turn_of_error (stopped : state.next machine.config machine.program = .error reason) :
    machine.turn state = (state, some reason) := by
  unfold turn
  cases found : machine.program.fetch state with
  | error early =>
    cases (State.next_of_unfetched found).symm.trans stopped
    rfl
  | ok place =>
    obtain ⟨pc, instruction⟩ := place
    simp only [turnAt, (State.next_of_fetched found).symm.trans stopped]

theorem turn_of_within (moved : state.next machine.config machine.program = .ok next)
    (within : next.steps ≤ machine.config.stepLimit) : machine.turn state = (next, none) := by
  obtain ⟨pc, instruction, found, _, carried⟩ := State.next_eq_ok moved
  simp only [turn, found, turnAt, carried, if_neg (Nat.not_lt.mpr within)]

/-- A step over the limit is taken all the same, and reported at the instruction it was. -/
theorem turn_of_beyond (moved : state.next machine.config machine.program = .ok next)
    (beyond : machine.config.stepLimit < next.steps) :
    ∃ pc location, state.pc = some pc ∧
      machine.turn state = (next, some (.fault ⟨.stepLimit machine.config.stepLimit, some pc,
        some (next.steps - 1), location⟩)) := by
  obtain ⟨pc, instruction, found, coming, carried⟩ := State.next_eq_ok moved
  refine ⟨pc, instruction.location, coming, ?_⟩
  simp only [turn, found, turnAt, carried, if_pos beyond]

theorem turn_eq_some (stopped : machine.turn state = (after, some reason)) :
    (state.next machine.config machine.program = .error reason ∧ after = state) ∨
      ∃ step place location, reason =
        .fault ⟨.stepLimit machine.config.stepLimit, place, step, location⟩ := by
  cases moved : state.next machine.config machine.program with
  | error early =>
    cases (turn_of_error moved).symm.trans stopped
    exact .inl ⟨rfl, rfl⟩
  | ok next =>
    right
    by_cases within : next.steps ≤ machine.config.stepLimit
    · cases (turn_of_within moved within).symm.trans stopped
    · obtain ⟨pc, location, _, turned⟩ := turn_of_beyond moved (Nat.lt_of_not_le within)
      cases turned.symm.trans stopped
      exact ⟨_, _, _, rfl⟩

end Machine

end MailRoom
