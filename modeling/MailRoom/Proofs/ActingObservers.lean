import MailRoom.Proofs.Lockstep
import MailRoom.Proofs.NonRaisingObservers

/-! What observers can do to a run. Main statement: `Program.observers_cut_short`, by which a
watched execution is the one that nobody watches unless it is cut short. -/
namespace MailRoom

def Machine.plain (machine : Machine) : Machine :=
  { machine with verbose := false, capacity := some Log.standardCapacity }

namespace Session

variable {machine : Machine} {first other last : Session} {passed : List Session} {reason : Stop}

/-- Nobody watches the other session, and its state is the same. -/
def Unwatched (session other : Session) : Prop :=
  other.audience.Silent ∧ other.state = session.state

/-- A watched step comes to what it would with nobody watching, or somebody raises something at it
and cuts it short. -/
theorem Unwatched.abreast (unwatched : Unwatched first other) :
    Abreast machine machine.plain Unwatched (RaisesAtStep machine) first other := by
  obtain ⟨silent, same⟩ := unwatched
  have turned : machine.plain.turn other.state = machine.turn first.state := same ▸ rfl
  have stepped : other.step machine.plain = _ := step_silent silent
  rw [turned] at stepped
  rcases step_cases machine first with quiet | ⟨raises, stopped, unmoved | moved⟩
  · rw [← quiet] at stepped
    rw [Abreast, stepped]
    exact .inl ⟨⟨silent, rfl⟩, rfl⟩
  · exact .inr ⟨raises, stopped, .inl ⟨silent, same.trans unmoved.symm⟩⟩
  · rw [Abreast, stepped]
    exact .inr ⟨raises, stopped, .inr ⟨silent, Machine.turn_of_next moved⟩⟩

end Session

/-- Observers, whatever they note, raise or enrol, and whatever is logged, do nothing to a run but
cut it short. The execution they watch ends in the state that the one without them reaches after as
many steps, so that its outbox is the beginning of the other's; and if none of them raises anything,
both end in the same state with the same verdict. -/
theorem Program.observers_cut_short {file text : String} {mnemonics : Mnemonics} {machine : Machine}
    (parsed : Program.parse file text mnemonics = .ok machine.program)
    {room : Nat} {layout : List (Int × Json)} {inbox : List Json} {start : State}
    (started : State.ofJson room machine.config layout inbox = .ok start) (audience : Audience) :
    let watched := machine.session audience start
    let ended := (watched.execute machine).1.state
    ∃ passed last reason verdict,
      Session.Run machine.plain (machine.plain.session .empty start) passed last reason ∧
      (machine.plain.session .empty start).execute machine.plain = (last, .ok verdict) ∧
      (∃ reached ∈ passed ++ [last], reached.state = ended) ∧
      start.advance machine.config machine.program ended.steps = .ok ended ∧
      ended.outbox <+: last.state.outbox ∧
      (¬watched.Raises machine →
        ended = last.state ∧ (watched.execute machine).2 = .ok verdict) := by
  intro watched ended
  obtain ⟨sound, fresh⟩ := State.ofJson_sound started machine.program
  have silent : (machine.plain.session .empty start).audience.Silent := Audience.silent_empty
  obtain ⟨passed', course'⟩ := Session.exists_run machine watched.opened
  have unwatched : Session.Unwatched watched.opened (machine.plain.session .empty start) :=
    ⟨silent, rfl⟩
  obtain ⟨passed, last, reason, course, through, ends⟩ :=
    course'.outlived Session.Unwatched.abreast unwatched
  obtain ⟨_, _, _, verdict, again, judged, executed⟩ :=
    @exists_judged_run file text mnemonics machine.plain parsed start sound
  cases again.run_eq.symm.trans course.run_eq
  have reached : ∃ reached ∈ passed ++ [last], reached.state = ended := by
    rcases Session.execute_state course' with atEnd | atStart
    · obtain ⟨reached, member, _, there⟩ := through
      exact ⟨reached, member, there.trans atEnd.symm⟩
    · exact ⟨_, List.mem_append_left _ course.first_mem, atStart.symm⟩
  refine ⟨passed, last, reason, verdict, course, executed, reached, ?_, ?_, ?_⟩
  · obtain ⟨session, member, there⟩ := reached
    obtain ⟨count, advanced⟩ := course.advances session member
    rw [there] at advanced
    have counted : ended.steps = start.steps + count := State.steps_advance advanced
    rw [counted, fresh, Nat.zero_add]
    exact advanced
  · obtain ⟨session, member, there⟩ := reached
    exact there ▸ course.outbox_grows (parse_formed parsed) session member
  · intro undisturbed
    obtain ⟨atEnd, result⟩ := Session.execute_of_undisturbed undisturbed course'
    rcases ends with ⟨visited, member, _, objects⟩ | ⟨⟨_, same⟩, rfl⟩
    · exact absurd (.atStep course' member objects) undisturbed
    · refine ⟨atEnd.trans same.symm, result.trans ?_⟩
      rw [← same]
      exact judged

/-- Before the first instruction an observer brings in another one, who waits for every second step
and has this in mind. -/
private def bringing (plan : List Cue) : Audience :=
  ⟨.ofRequests [⟨.event "before_instruction", "usher", 0, [.enrol 1 (.every 2) "guest" 0 plan]⟩], []⟩

/-- The loop on two letters. A guest who ends the run when called leaves the outbox with the first
letter; one who does nothing leaves everything as it is without observers. -/
theorem Program.observers_cut_short_guest :
    Program.parse "<string>" "a:\nINBOX\nOUTBOX\nJUMP a" .standard = .ok .passOn ∧
      ∃ (machine : Machine) (start : State) (last : Session),
        machine.program = .passOn ∧ machine.verbose = true ∧
        State.ofJson 9 machine.config [] [.text [.scalar 'x'], .text [.scalar 'y']] = .ok start ∧
        (machine.plain.session .empty start).execute machine.plain = (last, .ok ⟨6, none⟩) ∧
        last.state.outbox = [.letter 'x', .letter 'y'] ∧
        (∃ ended, ((machine.session (bringing [.halt 1]) start).execute machine).1.state = ended ∧
          ended.steps = 2 ∧ ended.outbox = [.letter 'x'] ∧
          start.advance machine.config machine.program 2 = .ok ended) ∧
        ((machine.session (bringing []) start).execute machine).1.state = last.state ∧
        ((machine.session (bringing []) start).execute machine).2 = .ok ⟨6, none⟩ := by
  let machine : Machine := ⟨.passOn, ⟨0, 999, 10, by decide, by decide⟩, true, some 1⟩
  let start : State := .initial ⟨#[]⟩ [.letter 'x', .letter 'y']
  have started : State.ofJson 9 machine.config [] [.text [.scalar 'x'], .text [.scalar 'y']] =
      .ok start := rfl
  obtain ⟨_, last, _, verdict, _, executed, _, advanced, _, _⟩ :=
    @observers_cut_short _ _ _ machine parse_passOn 9 [] _ start started (bringing [.halt 1])
  obtain ⟨_, again, _, verdict', _, executed', _, _, _, undisturbed⟩ :=
    @observers_cut_short _ _ _ machine parse_passOn 9 [] _ start started (bringing [])
  cases executed.symm.trans executed'
  have judged : verdict = ⟨6, none⟩ := by
    have judged := congrArg (·.2.toOption) executed
    exact Option.some.inj (judged.symm.trans (by decide +kernel))
  have passedOn : last.state.outbox = [.letter 'x', .letter 'y'] := by
    rw [← congrArg (·.1.state.outbox) executed]
    decide +kernel
  have short : ((machine.session (bringing [.halt 1]) start).execute machine).1.state.steps = 2 := by
    decide +kernel
  have mild : (machine.session (bringing []) start).audience.Mild := by
    refine Registry.mild_ofRequests fun request asked cue present => ?_
    rw [List.mem_singleton.mp asked] at present
    rw [List.mem_singleton.mp present]
    exact .enrol (show (0 : Int) < 2 by decide) (by simp)
  obtain ⟨same, result⟩ := undisturbed (Session.undisturbed_of_mild mild)
  rw [short] at advanced
  exact ⟨parse_passOn, machine, start, last, rfl, rfl, started, judged ▸ executed, passedOn,
    ⟨_, rfl, short, by decide +kernel, advanced⟩, same, judged ▸ result⟩

end MailRoom
