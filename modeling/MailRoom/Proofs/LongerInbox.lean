import MailRoom.Proofs.LargerResources

/-! Runs on a longer inbox. Main statement: `Program.longer_inbox_extends_outbox`, by which what is
added to the inbox only matters to a run that took all there was and asked for more. -/
namespace MailRoom

/-- The instruction to come takes from the inbox, and nothing is left there. -/
def Program.RanDry (program : Program) (state : State) : Prop :=
  ∃ pc instruction, program.fetch state = .ok (pc, instruction) ∧
    instruction.opcode = .inbox ∧ state.inbox.length ≤ state.cursor

namespace Program

variable {program : Program} {config : Config} {state : State}

theorem ranDry_of_halted {pc : Int} {instruction : Instruction} (formed : program.Formed)
    (found : program.fetch state = .ok (pc, instruction))
    (halted : state.perform config pc instruction = .error .halt) : program.RanDry state := by
  have complete := (formed instruction (State.mem_of_fetch found)).complete
  obtain ⟨_, takes, dry⟩ := Spec.outcome_eq_halt.mp (Spec.outcome_of_halted complete halted)
  exact ⟨pc, instruction, found, takes, dry⟩

/-- A program halts where its instructions end and where its inbox has run dry. -/
theorem halts_cases (formed : program.Formed) (halted : state.next config program = .error .halt) :
    program.fetch state = .error .halt ∨ program.RanDry state := by
  cases found : program.fetch state with
  | error reason =>
    cases (State.next_of_unfetched found).symm.trans halted
    exact .inl rfl
  | ok place =>
    obtain ⟨pc, instruction⟩ := place
    right
    rw [State.next_of_fetched found, State.carryOut] at halted
    cases performed : state.perform config pc instruction with
    | ok next =>
      rw [performed] at halted
      cases halted
    | error cause =>
      rw [performed, mapError_error] at halted
      have halt := Break.toStop_eq_halt.mp (Except.error.inj halted)
      exact ranDry_of_halted formed found (halt ▸ performed)

end Program

/-- A run that nobody watches ends in front of an instruction that finds the inbox dry, with an
error or behind the end of the program. -/
theorem Session.Run.ends_cases {machine : Machine} {first last : Session} {passed : List Session}
    {reason : Stop} {verdict : Verdict} (course : Run machine first passed last reason)
    (silent : first.audience.Silent) (formed : machine.program.Formed)
    (judged : reason.verdict last.state.steps = .ok verdict) :
    (verdict.error = none ∧ machine.program.RanDry last.state) ∨
      verdict.error.isSome ∨ machine.program.fetch last.state = .error .halt := by
  cases reason with
  | halt =>
    cases judged
    obtain ⟨visited, member, stopped⟩ := course.last_step
    have turned := (step_eq_silent ((course.silent silent).2 visited member) stopped).1
    rcases Machine.turn_eq_some turned with ⟨halted, same⟩ | ⟨_, _, _, limited⟩
    · rw [same]
      rcases Program.halts_cases formed halted with left | dry
      · exact .inr (.inr left)
      · exact .inl ⟨rfl, dry⟩
    · cases limited
  | fault incident =>
    cases judged
    exact .inr (.inl rfl)
  | defect => cases judged
  | refused => cases judged

theorem Machine.Stinted.halts {machine : Machine} {state : State}
    (stinted : machine.Stinted (· = .halt) state) :
    machine.turn state = (state, some .halt) ∧ ∃ place, machine.program.fetch state = .ok place := by
  cases stinted with
  | broken found breaks want =>
    subst want
    refine ⟨?_, _, found⟩
    simp only [turn_of_fetched found, turnAt, State.carryOut, breaks, mapError_error, Break.toStop]
  | spent _ _ want => cases want

/-- A start on a longer inbox is one on its beginning, with the rest behind. -/
theorem State.ofJson_append {room : Nat} {config : Config} {layout : List (Int × Json)}
    {inbox more : List Json} {start' : State}
    (started' : State.ofJson room config layout (inbox ++ more) = .ok start') :
    ∃ floor taken further, State.ofJson room config layout inbox = .ok (.initial floor taken) ∧
      start' = .initial floor (taken ++ further) := by
  obtain ⟨values, floor, both, read, laid, filled, rfl⟩ := ofJson_eq_ok.mp started'
  rw [List.mapM_append] at filled
  obtain ⟨taken, first, filled⟩ := bind_eq_ok.mp filled
  obtain ⟨further, _, filled⟩ := bind_eq_ok.mp filled
  cases filled
  exact ⟨floor, taken, further, ofJson_eq_ok.mpr ⟨values, floor, taken, read, laid, first, rfl⟩, rfl⟩

/-- A program that a text gives, run on an inbox and on a longer one that begins with it. The outbox
of the one run is the beginning of the other's. The first run ends at an instruction that finds the
inbox dry, with an error or behind the end of the program; except in the first case the other run
ends with the same outbox and the same verdict. -/
theorem Program.longer_inbox_extends_outbox {file text : String} {mnemonics : Mnemonics}
    {machine : Machine}
    (parsed : Program.parse file text mnemonics = .ok machine.program)
    {room : Nat} {layout : List (Int × Json)} {inbox more : List Json} {start' : State}
    (started' : State.ofJson room machine.config layout (inbox ++ more) = .ok start') :
    ∃ start last last' verdict verdict',
      State.ofJson room machine.config layout inbox = .ok start ∧
      (machine.session .empty start).execute machine = (last, .ok verdict) ∧
      (machine.session .empty start').execute machine = (last', .ok verdict') ∧
      last.state.outbox <+: last'.state.outbox ∧
      ((verdict.error = none ∧ machine.program.RanDry last.state) ∨
        verdict.error.isSome ∨ machine.program.fetch last.state = .error .halt) ∧
      (verdict.error.isSome ∨ machine.program.fetch last.state = .error .halt →
        last'.state.outbox = last.state.outbox ∧ verdict' = verdict) := by
  obtain ⟨floor, taken, further, started, rfl⟩ := State.ofJson_append started'
  have formed := parse_formed parsed
  have machines : machine.Ampler (· = .halt) machine := ⟨rfl, ⟨.inl rfl, .inl rfl⟩⟩
  have states :
      (State.initial floor taken).Ampler (· = .halt) (.initial floor (taken ++ further)) :=
    { pc := rfl, hands := rfl, floor := .same, inbox := .inr ⟨List.prefix_append _ _, rfl⟩
      cursor := rfl, outbox := rfl, steps := rfl }
  obtain ⟨passed, last, last', reason, verdict, verdict', course, judged, executed, executed', grows,
    ends⟩ := exists_ampler_run parsed machines (State.initial_sound floor taken _)
      (State.initial_sound floor (taken ++ further) _) states
  refine ⟨_, last, last', verdict, verdict', started, executed, executed', grows,
    course.ends_cases Audience.silent_empty formed judged, fun settled => ?_⟩
  rcases ends with ⟨state, turned, stinted⟩ | same
  · -- A run in want of more has halted, without an error and in front of an instruction.
    obtain ⟨halted, place, found⟩ := stinted.halts
    cases halted.symm.trans turned
    cases judged
    rw [found] at settled
    simp at settled
  · exact same

private def passTwo : Program where
  instructions := [⟨.inbox, none, none, none, some ⟨"<string>", 1, 1, "INBOX"⟩⟩,
    ⟨.outbox, none, none, none, some ⟨"<string>", 2, 1, "OUTBOX"⟩⟩,
    ⟨.inbox, none, none, none, some ⟨"<string>", 3, 1, "INBOX"⟩⟩,
    ⟨.outbox, none, none, none, some ⟨"<string>", 4, 1, "OUTBOX"⟩⟩]
  labels := .empty
  markers := []
  definitions := []
  location := some ⟨"<string>", 4, 7, "OUTBOX"⟩

/-- Passing on two values takes a second one that is added to the inbox, and leaves a third one
alone. -/
theorem Program.longer_inbox_extends_outbox_passTwo :
    Program.parse "<string>" "INBOX\nOUTBOX\nINBOX\nOUTBOX" .standard = .ok passTwo ∧
      ∃ (machine : Machine) (one two three : State) (last last' last'' : Session),
        machine.program = passTwo ∧
        State.ofJson 9 machine.config [] [.int 1] = .ok one ∧
        State.ofJson 9 machine.config [] ([.int 1] ++ [.int 2]) = .ok two ∧
        State.ofJson 9 machine.config [] ([.int 1, .int 2] ++ [.int 3]) = .ok three ∧
        (machine.session .empty one).execute machine = (last, .ok ⟨2, none⟩) ∧
        (machine.session .empty two).execute machine = (last', .ok ⟨4, none⟩) ∧
        (machine.session .empty three).execute machine = (last'', .ok ⟨4, none⟩) ∧
        last.state.outbox.map Value.text = ["1"] ∧ passTwo.RanDry last.state ∧
        last'.state.outbox.map Value.text = ["1", "2"] ∧
        last''.state.outbox = last'.state.outbox := by
  have parsed : Program.parse "<string>" "INBOX\nOUTBOX\nINBOX\nOUTBOX" .standard = .ok passTwo :=
    toOption_eq_some.mp (by decide +kernel)
  let machine : Machine := ⟨passTwo, ⟨0, 999, 10, by decide, by decide⟩, false, none⟩
  have started' : State.ofJson 9 machine.config [] ([.int 1] ++ [.int 2]) = .ok _ := rfl
  have further : State.ofJson 9 machine.config [] ([.int 1, .int 2] ++ [.int 3]) = .ok _ := rfl
  obtain ⟨one, last, last', verdict, verdict', started, executed, executed', _, ended, _⟩ :=
    longer_inbox_extends_outbox parsed started'
  obtain ⟨two, _, last'', _, verdict'', again, executed₂, executed'', _, _, settled⟩ :=
    longer_inbox_extends_outbox parsed further
  cases started
  cases again
  cases executed'.symm.trans executed₂
  have short : verdict = ⟨2, none⟩ :=
    Option.some.inj ((congrArg (·.2.toOption) executed).symm.trans (by decide +kernel))
  have long : verdict' = ⟨4, none⟩ :=
    Option.some.inj ((congrArg (·.2.toOption) executed').symm.trans (by decide +kernel))
  subst short long
  have dry : passTwo.RanDry last.state := by
    have coming : last.state.pc = some 2 :=
      (congrArg (·.1.state.pc) executed).symm.trans (by decide +kernel)
    rcases ended with ⟨_, dry⟩ | failed | left
    · exact dry
    · cases failed
    · simp [Program.fetch, coming, machine, passTwo] at left
  have left : passTwo.fetch last'.state = .error .halt := by
    have coming : last'.state.pc = some 4 :=
      (congrArg (·.1.state.pc) executed').symm.trans (by decide +kernel)
    simp [Program.fetch, coming, passTwo]
  obtain ⟨same, rfl⟩ := settled (.inr left)
  refine ⟨parsed, machine, _, _, _, last, last', last'', rfl, rfl, started', further, executed,
    executed', executed'', ?_, dry, ?_, same⟩
  · rw [← congrArg (·.1.state.outbox) executed]
    decide +kernel
  · rw [← congrArg (·.1.state.outbox) executed']
    decide +kernel

end MailRoom
