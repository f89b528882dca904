import MailRoom.Proofs.Safety
import MailRoom.Proofs.Turn

/-! Runs under a step limit against the program left to itself. Main statement:
`Program.execute_limited`, by which the limit changes nothing about a program that stops within it,
and otherwise ends the run right behind the first instruction over it. -/
namespace MailRoom

/-- The same floor and bound under another step limit. -/
def Config.limitedTo (config : Config) (limit : Nat) (positive : 0 < limit) : Config :=
  { config with stepLimit := limit, limit_pos := positive }

theorem Stop.steps_of_verdict {reason : Stop} {steps : Nat} {verdict : Verdict}
    (judged : reason.verdict steps = .ok verdict) : verdict.steps = steps := by
  cases reason <;> cases judged <;> rfl

namespace State

variable {config : Config} {program : Program} {state next reached : State} {count : Nat}
  {reason : Stop}

theorem next_limitedTo {limit : Nat} (positive : 0 < limit) :
    state.next (config.limitedTo limit positive) program = state.next config program := rfl

/-- The state after exactly so many instructions under no step limit, if nothing stops the program
before. -/
def advance (config : Config) (program : Program) : Nat → State → Except Stop State
  | 0, state => .ok state
  | count + 1, state => do
    let next ← state.next config program
    next.advance config program count

/-- The program left to itself stops after exactly so many instructions. -/
structure StopsAfter (config : Config) (program : Program) (start : State) (count : Nat)
    (reached : State) (reason : Stop) : Prop where
  advanced : start.advance config program count = .ok reached
  stopped : reached.next config program = .error reason

theorem advance_succ_eq_ok : state.advance config program (count + 1) = .ok reached ↔
    ∃ next, state.next config program = .ok next ∧ next.advance config program count = .ok reached :=
  bind_eq_ok

theorem advance_limitedTo {limit : Nat} (positive : 0 < limit) :
    state.advance (config.limitedTo limit positive) program count =
      state.advance config program count := by
  induction count generalizing state with
  | zero => rfl
  | succ count ih => simp only [advance, next_limitedTo, ih]

theorem StopsAfter.limitedTo {limit : Nat} (positive : 0 < limit)
    (stops : state.StopsAfter config program count reached reason) :
    state.StopsAfter (config.limitedTo limit positive) program count reached reason :=
  ⟨(advance_limitedTo positive).trans stops.advanced, (next_limitedTo positive).trans stops.stopped⟩

theorem steps_advance (advanced : state.advance config program count = .ok reached) :
    reached.steps = state.steps + count := by
  induction count generalizing state with
  | zero =>
    cases advanced
    rfl
  | succ count ih =>
    obtain ⟨next, moved, rest⟩ := advance_succ_eq_ok.mp advanced
    rw [ih rest, steps_next moved]
    omega

/-- Left to itself, a program stops within a number of instructions or goes on behind them. -/
theorem stops_or_goes_on (config : Config) (program : Program) (limit : Nat) (state : State) :
    (∃ count ≤ limit, ∃ reached reason, state.StopsAfter config program count reached reason) ∨
      ∃ before reached, state.advance config program limit = .ok before ∧
        before.next config program = .ok reached := by
  induction limit generalizing state with
  | zero =>
    cases moved : state.next config program with
    | error reason => exact .inl ⟨0, Nat.le_refl 0, state, reason, rfl, moved⟩
    | ok next => exact .inr ⟨state, next, rfl, moved⟩
  | succ limit ih =>
    cases moved : state.next config program with
    | error reason => exact .inl ⟨0, Nat.zero_le _, state, reason, rfl, moved⟩
    | ok next =>
      rcases ih next with ⟨count, within, reached, reason, stops⟩ | ⟨before, reached, ahead, further⟩
      · exact .inl ⟨count + 1, Nat.succ_le_succ within, reached, reason,
          advance_succ_eq_ok.mpr ⟨next, moved, stops.advanced⟩, stops.stopped⟩
      · exact .inr ⟨before, reached, advance_succ_eq_ok.mpr ⟨next, moved, ahead⟩, further⟩

end State

namespace Session

variable {machine : Machine} {session : Session} {count : Nat} {before reached : State}
  {reason : Stop}

/-- Within the limit a run goes along with the program left to itself: whatever run starts where
the program has come to is the end of the run from the start. -/
theorem run_goes_along (silent : session.audience.Silent)
    (advanced : session.state.advance machine.config machine.program count = .ok reached)
    (within : session.state.steps + count ≤ machine.config.stepLimit) :
    ∃ between : Session, between.state = reached ∧ between.audience.Silent ∧
      ∀ {passed last reason}, Run machine between passed last reason →
        ∃ passed, Run machine session passed last reason := by
  induction count generalizing session with
  | zero =>
    cases advanced
    exact ⟨session, rfl, silent, fun course => ⟨_, course⟩⟩
  | succ count ih =>
    obtain ⟨next, moved, rest⟩ := State.advance_succ_eq_ok.mp advanced
    have counted := State.steps_next moved
    have stepped : session.step machine = _ := step_silent silent
    rw [Machine.turn_of_within moved (by omega)] at stepped
    obtain ⟨between, same, quiet, behind⟩ :=
      @ih ⟨next, machine.noted session, session.audience⟩ silent rest (by simp only; omega)
    refine ⟨between, same, quiet, fun course => ?_⟩
    obtain ⟨passed, further⟩ := behind course
    exact ⟨_, .step stepped further⟩

/-- A program that stops within the limit stops the run in the same way. -/
theorem run_of_stopsAfter (silent : session.audience.Silent)
    (stops : session.state.StopsAfter machine.config machine.program count reached reason)
    (within : session.state.steps + count ≤ machine.config.stepLimit) :
    ∃ passed last, Run machine session passed last reason ∧ last.state = reached := by
  obtain ⟨between, rfl, quiet, behind⟩ := run_goes_along silent stops.advanced within
  have stepped : between.step machine = _ := step_silent quiet
  rw [Machine.turn_of_error stops.stopped] at stepped
  obtain ⟨passed, course⟩ := behind (.stop stepped)
  exact ⟨passed, _, course, rfl⟩

/-- A program that goes on behind the limit is stopped behind the first instruction over it. -/
theorem run_of_beyond (silent : session.audience.Silent)
    (advanced : session.state.advance machine.config machine.program count = .ok before)
    (full : session.state.steps + count = machine.config.stepLimit)
    (further : before.next machine.config machine.program = .ok reached) :
    ∃ pc location passed last, before.pc = some pc ∧ last.state = reached ∧
      Run machine session passed last (.fault ⟨.stepLimit machine.config.stepLimit, some pc,
        some machine.config.stepLimit, location⟩) := by
  have passed_steps := State.steps_advance advanced
  have counted := State.steps_next further
  obtain ⟨between, rfl, quiet, behind⟩ := run_goes_along silent advanced full.le
  obtain ⟨pc, location, coming, turned⟩ := Machine.turn_of_beyond further (by omega)
  rw [show (reached.steps : Int) - 1 = machine.config.stepLimit by omega] at turned
  have stepped : between.step machine = _ := step_silent quiet
  rw [turned] at stepped
  obtain ⟨passed, course⟩ := behind (.stop stepped)
  exact ⟨pc, location, passed, _, coming, rfl, course⟩

end Session

/-- A program that a text gives, run under a limit on its steps. If, left to itself, it stops after
no more instructions than the limit allows, the run stops there and in the same way. Otherwise it
carries out one instruction over the limit, and the run ends right behind that one: neither an end
of the program that comes next nor a fault further on shows. -/
theorem Program.execute_limited {file text : String} {mnemonics : Mnemonics} {program : Program}
    (parsed : Program.parse file text mnemonics = .ok program) {config : Config}
    {room : Nat} {layout : List (Int × Json)} {inbox : List Json} {start : State}
    (started : State.ofJson room config layout inbox = .ok start) {limit : Nat} (positive : 0 < limit)
    (verbose : Bool) (capacity : Option Nat) :
    let machine : Machine := ⟨program, config.limitedTo limit positive, verbose, capacity⟩
    ∃ last verdict, (machine.session .empty start).execute machine = (last, .ok verdict) ∧
      (∀ count reached reason, count ≤ limit →
        start.StopsAfter config program count reached reason →
        reason.verdict count = .ok verdict ∧ verdict.steps = count ∧ last.state = reached) ∧
      (∀ before reached, start.advance config program limit = .ok before →
        before.next config program = .ok reached →
        last.state = reached ∧ ∃ pc location, before.pc = some pc ∧
          verdict = ⟨limit + 1, some ⟨.stepLimit limit, some pc, some limit, location⟩⟩) ∧
      ((∃ count ≤ limit, ∃ reached reason, start.StopsAfter config program count reached reason) ∨
        ∃ before reached, start.advance config program limit = .ok before ∧
          before.next config program = .ok reached) := by
  intro machine
  obtain ⟨sound, fresh⟩ := State.ofJson_sound started program
  have silent : (machine.session .empty start).audience.Silent := Audience.silent_empty
  have unused : (machine.session .empty start).state.steps = 0 := fresh
  obtain ⟨passed, last, reason, verdict, course, judged, executed⟩ :=
    @exists_judged_run file text mnemonics machine parsed start sound
  refine ⟨last, verdict, executed, ?_, ?_, State.stops_or_goes_on config program limit start⟩
  · intro count reached cause within stops
    have stops_limited : start.StopsAfter machine.config program count reached cause :=
      stops.limitedTo positive
    obtain ⟨_, _, along, same⟩ := Session.run_of_stopsAfter silent stops_limited
      (by rw [unused, Nat.zero_add]; exact within)
    cases course.run_eq.symm.trans along.run_eq
    have counted := State.steps_advance stops.advanced
    rw [fresh, Nat.zero_add] at counted
    rw [same, counted] at judged
    exact ⟨judged, Stop.steps_of_verdict judged, same⟩
  · intro before reached advanced further
    have advanced_limited : start.advance machine.config program limit = .ok before :=
      (State.advance_limitedTo positive).trans advanced
    obtain ⟨pc, location, _, _, coming, same, along⟩ := Session.run_of_beyond silent
      advanced_limited (by rw [unused, Nat.zero_add]; rfl) further
    cases course.run_eq.symm.trans along.run_eq
    have counted := State.steps_next further
    rw [State.steps_advance advanced, fresh, Nat.zero_add] at counted
    rw [same, counted] at judged
    cases judged
    exact ⟨same, pc, location, coming, rfl⟩

/-- The loop on one letter, which ends after three instructions: in good time under a limit of
three, but one instruction too late under a limit of two, although it would have ended right there.
-/
theorem Program.execute_limited_loop :
    Program.parse "<string>" "a:\nINBOX\nOUTBOX\nJUMP a" .standard = .ok .passOn ∧
      ∃ (config : Config) (start : State) (enough short : Machine),
        State.ofJson 9 config [] [.text [.scalar 'x']] = .ok start ∧
        enough = ⟨.passOn, config.limitedTo 3 (by decide), false, none⟩ ∧
        short = ⟨.passOn, config.limitedTo 2 (by decide), false, none⟩ ∧
        (∃ last, (enough.session .empty start).execute enough = (last, .ok ⟨3, none⟩)) ∧
        ∃ last location, (short.session .empty start).execute short =
          (last, .ok ⟨3, some ⟨.stepLimit 2, some 2, some 2, location⟩⟩) := by
  let config : Config := ⟨0, 999, 1, by decide, by decide⟩
  have started : State.ofJson 9 config [] [.text [.scalar 'x']] =
      .ok (.initial ⟨#[]⟩ [.letter 'x']) := rfl
  refine ⟨parse_passOn, config, _, _, _, started, rfl, rfl, ?_, ?_⟩
  · obtain ⟨last, verdict, executed, ends, _, _⟩ :=
      execute_limited parse_passOn started (show 0 < 3 by decide) false none
    obtain ⟨judged, _, _⟩ := ends 3 _ .halt (Nat.le_refl 3) ⟨rfl, rfl⟩
    cases judged
    exact ⟨last, executed⟩
  · obtain ⟨last, verdict, executed, _, ends, _⟩ :=
      execute_limited parse_passOn started (show 0 < 2 by decide) false none
    obtain ⟨_, pc, location, coming, rfl⟩ := ends _ _ rfl rfl
    cases coming
    exact ⟨last, location, executed⟩

end MailRoom
