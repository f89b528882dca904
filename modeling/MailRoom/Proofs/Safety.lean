import MailRoom.Proofs.Assembly
import MailRoom.Proofs.Layout

/-! Runs of programs that come from a text. Main statement: `Program.execute_safe`, by which such a
run always ends within its limit with a verdict, and keeps its place, its inbox and its values in
order on the way. -/
namespace MailRoom

/-- An instruction with its operand; its target is an instruction or the end of the program. -/
structure Instruction.Formed (length : Nat) (instruction : Instruction) : Prop where
  complete : instruction.Complete
  inside : ∀ target, instruction.target = some target → 0 ≤ target ∧ target ≤ length

def Program.Formed (program : Program) : Prop :=
  ∀ instruction ∈ program.instructions, instruction.Formed program.instructions.length

namespace Grammar

variable {source : Source} {tokens : List Token} {items : List Item}

theorem Assembled.formed {program : Program} (assembled : Assembled items program)
    (sequence : Sequence source items tokens) (row : Token.Row tokens) : program.Formed := by
  intro instruction member
  have unresolved : instruction.unresolved ∈ Item.instructions items :=
    assembled.instructions ▸ List.mem_map_of_mem member
  obtain ⟨tokens, behind, row, phrase⟩ := sequence.phrases row _ (mem_instructions.mp unresolved)
  have aimed := assembled.aimed instruction member
  have inside := assembled.inside instruction member
  refine ⟨?_, ?_⟩
  · obtain ⟨opcode, address, label, target, location⟩ := instruction
    cases phrase with
    | instruction named free found shaped operand ends =>
      refine ⟨by simp [shaped], fun addressed => ?_, fun labelled => ?_⟩
      · cases shaped.symm.trans addressed
        cases operand with
        | direct number => exact ⟨_, rfl, number.natural⟩
        | indirect opens number closes => exact ⟨_, rfl, number.natural⟩
      · cases shaped.symm.trans labelled
        cases operand with
        | label word =>
          obtain ⟨target, settled, _⟩ := inside _ rfl
          exact ⟨target, settled⟩
  · intro target settled
    cases label : instruction.label with
    | none => simp [aimed, label] at settled
    | some name =>
      obtain ⟨index, reached, bound⟩ := inside name label
      cases reached.symm.trans settled
      omega

end Grammar

/-- A program that a text gives has an operand wherever one is needed. -/
theorem Program.parse_formed {file text : String} {mnemonics : Mnemonics} {program : Program}
    (parsed : Program.parse file text mnemonics = .ok program) : program.Formed := by
  obtain ⟨tokens, scanned, success⟩ := parse_eq_ok.mp parsed
  have row := Lexer.scan_row scanned
  obtain ⟨_, items, last, accepted, rfl⟩ := Grammar.ofTokens_sound row success
  exact (Grammar.assembled_assemble last accepted).formed accepted.sequence row

/-- A number of 32 bits or a letter that is a Unicode scalar value. -/
def Value.WellFormed : Value → Prop
  | number value => -2147483648 ≤ value.val ∧ value.val ≤ 2147483647
  | letter char => char.val.isValidChar

theorem Value.wellFormed (value : Value) : value.WellFormed := by
  cases value with
  | number value => exact ⟨value.lower, value.upper⟩
  | letter char => exact char.valid

/-- A state in order: the next instruction is one of the program's or its end, no more has been
taken from the inbox than was in it, and all values are well-formed. -/
structure State.Sound (program : Program) (state : State) : Prop where
  pc : ∃ pc : Int, state.pc = some pc ∧ 0 ≤ pc ∧ pc ≤ program.instructions.length
  cursor : state.cursor ≤ state.inbox.length
  hands : ∀ value, state.hands = some value → value.WellFormed
  floor : ∀ value, some value ∈ state.floor.tiles → value.WellFormed
  outbox : ∀ value ∈ state.outbox, value.WellFormed

theorem State.sound_of {program : Program} {state : State} (pc : Int)
    (coming : state.pc = some pc) (inside : 0 ≤ pc ∧ pc ≤ program.instructions.length)
    (cursor : state.cursor ≤ state.inbox.length) : state.Sound program :=
  ⟨⟨pc, coming, inside⟩, cursor, fun value _ => value.wellFormed, fun value _ => value.wellFormed,
    fun value _ => value.wellFormed⟩

/-- The kinds of faults that a program may run into. -/
def Fault.kinds : List String :=
  ["EmptyHands", "TileEmpty", "TypeMismatch", "Overflow", "InvalidAddress", "StepLimitExceeded"]

theorem Spec.Complaint.kind_mem (complaint : Complaint) : complaint.kind ∈ Fault.kinds := by
  cases complaint <;> decide

/-- A stop that makes a verdict: a halt, or a fault of one of the kinds. -/
inductive Stop.Ordinary : Stop → Prop where
  | halt : Ordinary .halt
  | fault {incident : Incident} (usual : incident.fault.kind ∈ Fault.kinds) :
      Ordinary (.fault incident)

namespace Machine

variable {machine : Machine} {state : State}

theorem turn_cases (sound : state.Sound machine.program) :
    machine.turn state = (state, some .halt) ∨
      ∃ pc instruction, state.pc = some pc ∧ 0 ≤ pc ∧ pc < machine.program.instructions.length ∧
        instruction ∈ machine.program.instructions ∧
        machine.turn state = machine.turnAt pc instruction state := by
  obtain ⟨pc, coming, natural, _⟩ := sound.pc
  cases found : machine.program.instructions[pc.toNat]? with
  | none =>
    left
    simp [turn, Program.fetch, coming, Int.not_lt.mpr natural, found]
  | some instruction =>
    right
    obtain ⟨inside, same⟩ := List.getElem?_eq_some_iff.mp found
    refine ⟨pc, instruction, coming, natural, by omega, same ▸ List.getElem_mem inside, ?_⟩
    simp [turn, Program.fetch, coming, Int.not_lt.mpr natural, found]

/-- The state after an instruction is in order again. -/
theorem sound_after {instruction : Instruction} {pc : Int} {next : State}
    (formed : instruction.Formed machine.program.instructions.length)
    (inside : 0 ≤ pc ∧ pc < machine.program.instructions.length)
    (cursor : state.cursor ≤ state.inbox.length)
    (happens : Spec.outcome machine.config instruction state pc = .next next) :
    next.Sound machine.program := by
  obtain ⟨_, supplied, rfl⟩ := Spec.outcome_eq_next.mp happens
  have cursor : (Spec.after instruction state pc).cursor ≤ state.inbox.length := by
    simp only [Spec.after]
    split
    · rename_i takes
      exact supplied takes
    · exact cursor
  by_cases jumps : Spec.jumps instruction state = true
  · have shape : instruction.opcode.shape? = some .label := by
      unfold Spec.jumps at jumps
      split at jumps <;> simp_all [Opcode.shape?]
    obtain ⟨target, aimed⟩ := formed.complete.aimed shape
    exact State.sound_of target (by simp [Spec.after, jumps, aimed])
      (formed.inside target aimed) cursor
  · exact State.sound_of (pc + 1) (by simp [Spec.after, jumps]) (by omega) cursor

/-- A turn keeps a state in order, and what stops it makes a verdict. -/
theorem turn_sound (formed : machine.program.Formed) (sound : state.Sound machine.program) :
    (machine.turn state).1.Sound machine.program ∧
      ∀ reason, (machine.turn state).2 = some reason → reason.Ordinary := by
  rcases turn_cases sound with ended | ⟨pc, instruction, coming, natural, small, member, carried⟩
  · rw [ended]
    refine ⟨sound, ?_⟩
    rintro _ ⟨⟩
    exact .halt
  · rw [carried]
    have shown := Spec.turnAt_shows machine state pc (formed instruction member).complete
      (.empty none) .empty
    cases happens : Spec.outcome machine.config instruction state pc with
    | complaint complaint =>
      rw [happens] at shown
      obtain ⟨same, fault, reported, kind⟩ := shown
      simp only at same reported
      rw [same, reported]
      refine ⟨sound, ?_⟩
      rintro _ ⟨⟩
      exact .fault (kind ▸ complaint.kind_mem)
    | halt =>
      rw [happens] at shown
      obtain ⟨same, reported⟩ := shown
      simp only at same reported
      rw [same, reported]
      refine ⟨sound, ?_⟩
      rintro _ ⟨⟩
      exact .halt
    | next next =>
      rw [happens] at shown
      obtain ⟨same, reported⟩ := shown
      simp only at same reported
      rw [same, reported]
      refine ⟨sound_after (formed instruction member) ⟨natural, small⟩ sound.cursor happens, ?_⟩
      intro reason limited
      split at limited
      · cases limited
        exact .fault (by simp [Fault.kinds, Fault.kind])
      · cases limited

theorem turn_steps (machine : Machine) (state : State) :
    (machine.turn state).1.steps ≤ state.steps + 1 := by
  unfold turn
  cases machine.program.fetch state with
  | error reason => exact Nat.le_succ _
  | ok found =>
    obtain ⟨pc, instruction⟩ := found
    simp only [turnAt]
    cases carried : state.carryOut machine.config pc instruction with
    | error reason => exact Nat.le_succ _
    | ok next =>
      have counted := State.steps_carryOut carried
      simp only
      split <;> exact counted.le

end Machine

namespace Session

variable {machine : Machine} {first last : Session} {passed : List Session} {reason : Stop}

theorem Run.steps_le (course : Run machine first passed last reason)
    (silent : first.audience.Silent) :
    last.state.steps ≤ first.state.steps + passed.length := by
  induction course with
  | @stop first last _ stopped =>
    have counted := machine.turn_steps first.state
    rw [← state_step_silent silent, stopped] at counted
    exact counted
  | @step first next last passed _ moved rest ih =>
    have counted := machine.turn_steps first.state
    rw [← state_step_silent silent, moved] at counted
    have unheard : (first.step machine).1.audience = first.audience := audience_step_silent silent
    rw [moved] at unheard
    have further := ih (unheard ▸ silent)
    simp only [List.length_cons] at counted ⊢
    omega

/-- A run from a state in order is in order all along and comes to an ordinary stop. -/
theorem Run.sound (course : Run machine first passed last reason)
    (silent : first.audience.Silent) (formed : machine.program.Formed)
    (sound : first.state.Sound machine.program) :
    (∀ session ∈ passed ++ [last], session.state.Sound machine.program) ∧ reason.Ordinary := by
  have kept := course.keeps
    (fun session => session.audience.Silent ∧ session.state.Sound machine.program) ⟨silent, sound⟩
    fun session good => by
      rw [audience_step_silent good.1, state_step_silent good.1]
      exact ⟨good.1, (Machine.turn_sound formed good.2).1⟩
  refine ⟨?_, ?_⟩
  · intro session member
    rcases List.mem_append.mp member with earlier | atEnd
    · exact (kept.2 session earlier).2
    · exact List.mem_singleton.mp atEnd ▸ kept.1.2
  · obtain ⟨session, member, stopped⟩ := course.last_step
    obtain ⟨quiet, good⟩ := kept.2 session member
    have reported : (session.step machine).2 = _ := stop_step_silent quiet
    rw [stopped] at reported
    exact (Machine.turn_sound formed good).2 reason reported.symm

end Session

theorem State.initial_sound (floor : Floor) (inbox : List Value) (program : Program) :
    (State.initial floor inbox).Sound program :=
  State.sound_of 0 rfl (by omega) (Nat.zero_le _)

theorem State.ofJson_sound {room : Nat} {config : Config} {layout : List (Int × Json)}
    {inbox : List Json} {state : State}
    (started : State.ofJson room config layout inbox = .ok state) (program : Program) :
    state.Sound program ∧ state.steps = 0 := by
  obtain ⟨_, floor, taken, _, _, _, rfl⟩ := ofJson_eq_ok.mp started
  exact ⟨initial_sound floor taken program, rfl⟩

theorem Stop.Ordinary.judged {reason : Stop} (ordinary : reason.Ordinary) (steps : Nat) :
    ∃ verdict, reason.verdict steps = .ok verdict := by
  cases ordinary with
  | halt => exact ⟨_, rfl⟩
  | fault usual => exact ⟨_, rfl⟩

/-- A program that a text gives comes to a verdict from every state in order. -/
theorem Program.exists_judged_run {file text : String} {mnemonics : Mnemonics} {machine : Machine}
    (parsed : Program.parse file text mnemonics = .ok machine.program) {state : State}
    (sound : state.Sound machine.program) :
    ∃ passed last reason verdict,
      Session.Run machine (machine.session .empty state) passed last reason ∧
      reason.verdict last.state.steps = .ok verdict ∧
      (machine.session .empty state).execute machine = (last, .ok verdict) := by
  have silent : (machine.session .empty state).audience.Silent := Audience.silent_empty
  obtain ⟨passed, course⟩ := Session.exists_run machine (machine.session .empty state)
  have executed := Session.execute_silent course silent
  have ordinary := (course.sound silent (parse_formed parsed) sound).2
  obtain ⟨verdict, judged⟩ := ordinary.judged
    ((machine.session .empty state).run machine).1.state.steps
  rw [judged] at executed
  exact ⟨passed, _, _, verdict, course, judged, executed⟩

/-- How a run that nobody watches may end: completed without an error, or with an error of one of
the kinds. -/
def Verdict.Usual (verdict : Verdict) : Prop :=
  (verdict.status = .completed ∧ verdict.error = none) ∨
    (verdict.status = .runtimeError ∧
      ∃ incident, verdict.error = some incident ∧ incident.fault.kind ∈ Fault.kinds)

/-- A program that a text gives, started on any floor and inbox, always comes to a verdict, at most
one instruction over its limit; it completes or runs into a fault of one of the kinds, and all
states on the way are in order. -/
theorem Program.execute_safe {file text : String} {mnemonics : Mnemonics} {machine : Machine}
    (parsed : Program.parse file text mnemonics = .ok machine.program)
    {room : Nat} {layout : List (Int × Json)} {inbox : List Json} {state : State}
    (started : State.ofJson room machine.config layout inbox = .ok state) :
    ∃ passed last reason verdict,
      Session.Run machine (machine.session .empty state) passed last reason ∧
      (machine.session .empty state).execute machine = (last, .ok verdict) ∧
      passed.length ≤ machine.config.stepLimit + 1 ∧
      verdict.steps ≤ machine.config.stepLimit + 1 ∧ verdict.Usual ∧
      ∀ session ∈ passed ++ [last], session.state.Sound machine.program := by
  obtain ⟨passed, course⟩ := Session.exists_run machine (machine.session .empty state)
  obtain ⟨sound, fresh⟩ := State.ofJson_sound started machine.program
  have silent : (machine.session .empty state).audience.Silent := Audience.silent_empty
  have fresh : (machine.session .empty state).state.steps = 0 := fresh
  obtain ⟨kept, ordinary⟩ := course.sound silent (parse_formed parsed) sound
  have executed := Session.execute_silent course silent
  have length := course.length_le (by omega)
  have steps := course.steps_le silent
  rw [fresh, Nat.zero_add] at length steps
  generalize ((machine.session .empty state).run machine).1 = last at course kept executed steps
  generalize ((machine.session .empty state).run machine).2 = reason at course executed ordinary
  refine ⟨passed, last, reason, ?_⟩
  cases ordinary with
  | halt =>
    exact ⟨_, course, executed, length, steps.trans length, .inl ⟨rfl, rfl⟩, kept⟩
  | fault usual =>
    exact ⟨_, course, executed, length, steps.trans length, .inr ⟨rfl, _, rfl, usual⟩, kept⟩

/-- A loop that passes letters on, and its run on one of them. -/
theorem Program.execute_safe_loop :
    ∃ machine : Machine,
      Program.parse "" "a:\nINBOX\nOUTBOX\nJUMP a" .standard = .ok machine.program ∧
      ∃ state, State.ofJson 9 machine.config [(0, .int 3)] [.text [.scalar 'x']] = .ok state ∧
      ∃ last verdict, (machine.session .empty state).execute machine = (last, .ok verdict) ∧
        verdict.steps ≤ 11 ∧ verdict.Usual ∧ last.state.Sound machine.program := by
  have accepted : (Program.parse "" "a:\nINBOX\nOUTBOX\nJUMP a" .standard).isOk = true := by
    decide +kernel
  cases parsed : Program.parse "" "a:\nINBOX\nOUTBOX\nJUMP a" .standard with
  | error failure => simp [parsed, Except.isOk, Except.toBool] at accepted
  | ok program =>
    let machine : Machine := ⟨program, ⟨1, 999, 10, by decide, by decide⟩, false, none⟩
    refine ⟨machine, rfl, _, rfl, ?_⟩
    obtain ⟨passed, last, reason, verdict, course, executed, length, steps, usual, sound⟩ :=
      @execute_safe _ _ _ machine parsed 9 [(0, .int 3)] [.text [.scalar 'x']] _ rfl
    exact ⟨last, verdict, executed, steps, usual, sound last (by simp)⟩

deriving instance DecidableEq for Table, Program

def Program.passOn : Program where
  instructions := [⟨.inbox, none, none, none, some ⟨"<string>", 2, 1, "INBOX"⟩⟩,
    ⟨.outbox, none, none, none, some ⟨"<string>", 3, 1, "OUTBOX"⟩⟩,
    ⟨.jump, none, some "a", some 0, some ⟨"<string>", 4, 1, "JUMP a"⟩⟩]
  labels := ⟨[("a", 0)], by simp⟩
  markers := [⟨0, .label, "a"⟩]
  definitions := []
  location := some ⟨"<string>", 4, 7, "JUMP a"⟩

theorem Program.parse_passOn :
    Program.parse "<string>" "a:\nINBOX\nOUTBOX\nJUMP a" .standard = .ok .passOn :=
  toOption_eq_some.mp (by decide +kernel)

end MailRoom
