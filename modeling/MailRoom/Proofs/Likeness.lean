import MailRoom.Program.Writer
import MailRoom.Proofs.Lockstep
import MailRoom.Proofs.Writing

/-! Programs that differ in the places of their instructions only. Main statements:
`Program.Alike.format_eq`, by which they are written alike, and `Session.execute_alike`, by which
they run alike. -/
namespace MailRoom

/-- The same program up to where its text stands. -/
structure Program.Alike (first second : Program) : Prop where
  instructions : first.instructions.map Instruction.unlocated =
    second.instructions.map Instruction.unlocated
  labels : first.labels = second.labels
  markers : first.markers = second.markers
  definitions : first.definitions = second.definitions

namespace Program

variable {first second : Program} {mnemonics : Mnemonics}

theorem instructionLine_unlocated (instruction : Instruction) :
    instructionLine mnemonics instruction.unlocated = instructionLine mnemonics instruction := rfl

theorem Alike.markersAt_eq (alike : first.Alike second) (index : Nat) :
    first.markersAt index = second.markersAt index := by
  simp only [markersAt, allMarkers, unmarked, alike.labels, alike.markers]

theorem Alike.codeLines_eq (alike : first.Alike second) (index : Nat)
    {before after : List Instruction}
    (same : before.map Instruction.unlocated = after.map Instruction.unlocated) :
    first.codeLines mnemonics index before = second.codeLines mnemonics index after := by
  induction before generalizing index after with
  | nil =>
    cases List.map_eq_nil_iff.mp same.symm
    simp only [codeLines, alike.markersAt_eq]
  | cons instruction rest ih =>
    obtain ⟨other, below, rfl, head, tail⟩ := List.map_eq_cons_iff.mp same.symm
    have line : instructionLine mnemonics instruction = instructionLine mnemonics other := by
      rw [← instructionLine_unlocated, ← head, instructionLine_unlocated]
    simp only [codeLines, alike.markersAt_eq, line, ih (index + 1) tail.symm]

/-- Programs that are alike are written as the same text. -/
theorem Alike.format_eq (alike : first.Alike second) :
    first.format mnemonics = second.format mnemonics := by
  simp only [format, alike.definitions, alike.codeLines_eq 0 alike.instructions]

end Program

def Incident.unlocated (incident : Incident) : Incident := { incident with location := none }

def Stop.unlocated : Stop → Stop
  | fault incident => .fault incident.unlocated
  | other => other

def Verdict.unlocated (verdict : Verdict) : Verdict :=
  { verdict with error := verdict.error.map Incident.unlocated }

theorem Stop.verdict_unlocated {first second : Stop} (steps : Nat)
    (same : first.unlocated = second.unlocated) :
    (first.verdict steps).map Verdict.unlocated = (second.verdict steps).map Verdict.unlocated := by
  cases first with
  | fault incident =>
    cases second with
    | fault other =>
      have incidents : incident.unlocated = other.unlocated := Stop.fault.inj same
      simp [verdict, Verdict.unlocated, Except.map, incidents]
    | _ => cases same
  | _ =>
    cases second <;> cases same
    rfl

namespace Machine

variable {first second : Machine}

theorem perform_unlocated (config : Config) (pc : Int) (instruction : Instruction) (state : State) :
    state.perform config pc instruction.unlocated = state.perform config pc instruction := rfl

/-- Where an instruction stands shows in nothing but the place that a fault names. -/
theorem turnAt_alike (config : first.config = second.config) (pc : Int) (state : State)
    {before after : Instruction} (same : before.unlocated = after.unlocated) :
    (first.turnAt pc before state).1 = (second.turnAt pc after state).1 ∧
      (first.turnAt pc before state).2.map Stop.unlocated =
        (second.turnAt pc after state).2.map Stop.unlocated := by
  have performed : state.perform first.config pc before =
      state.perform second.config pc after := by
    rw [← perform_unlocated, same, perform_unlocated, config]
  unfold turnAt State.carryOut
  rw [performed, config]
  cases state.perform second.config pc after with
  | error reason => cases reason <;> exact ⟨rfl, rfl⟩
  | ok next =>
    simp only [mapError_ok]
    split <;> exact ⟨rfl, rfl⟩

theorem turn_alike (config : first.config = second.config)
    (alike : first.program.Alike second.program) (state : State) :
    (first.turn state).1 = (second.turn state).1 ∧
      (first.turn state).2.map Stop.unlocated = (second.turn state).2.map Stop.unlocated := by
  have fetched (place : Nat) : first.program.instructions[place]?.map Instruction.unlocated =
      second.program.instructions[place]?.map Instruction.unlocated := by
    rw [← List.getElem?_map, alike.instructions, List.getElem?_map]
  unfold turn Program.fetch
  cases state.pc with
  | none => exact ⟨rfl, rfl⟩
  | some pc =>
    by_cases negative : pc < 0
    · simp [negative]
    · have fetched := fetched pc.toNat
      cases found : first.program.instructions[pc.toNat]? with
      | none =>
        rw [found] at fetched
        have missing := Option.map_eq_none_iff.mp fetched.symm
        simp [negative, found, missing]
      | some before =>
        rw [found] at fetched
        obtain ⟨after, found', same⟩ := Option.map_eq_some_iff.mp fetched.symm
        simp only [negative, if_false, found, found']
        exact turnAt_alike config pc state same.symm

theorem inStep_alike (config : first.config = second.config)
    (alike : first.program.Alike second.program) :
    first.InStep second Eq fun reason other => reason.unlocated = other.unlocated where
  states := by
    rintro state _ rfl
    exact (turn_alike config alike state).1
  stops := by
    rintro state _ rfl
    have ends := (turn_alike config alike state).2
    cases stop : (first.turn state).2 with
    | none =>
      rw [stop] at ends
      rw [Option.map_eq_none_iff.mp ends.symm]
      exact .none
    | some reason =>
      rw [stop] at ends
      obtain ⟨other, stop', same⟩ := Option.map_eq_some_iff.mp ends.symm
      rw [stop']
      exact .some same.symm

end Machine

/-- Programs that are alike come from a state to the same state and, up to the place that a fault
names, to the same verdict. -/
theorem Session.execute_alike {first second : Machine} (config : first.config = second.config)
    (alike : first.program.Alike second.program) (state : State) :
    ((first.session .empty state).execute first).1.state =
        ((second.session .empty state).execute second).1.state ∧
      ((first.session .empty state).execute first).2.map Verdict.unlocated =
        ((second.session .empty state).execute second).2.map Verdict.unlocated := by
  obtain ⟨last, last', reason, reason', executed, executed', states, reasons⟩ :=
    execute_in_step (Machine.inStep_alike config alike) (Eq.refl state)
  have counted := congrArg State.steps states
  rw [executed, executed', counted]
  exact ⟨states, Stop.verdict_unlocated _ reasons⟩

end MailRoom
