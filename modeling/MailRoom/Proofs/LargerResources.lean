import MailRoom.Proofs.Layout
import MailRoom.Proofs.Lockstep
import MailRoom.Proofs.WatchedSessions

/-! Runs with more to go on: more in the inbox, a larger floor with more on it, wider limits. What a
run may be stopped by for want of something is left open. Main statements: `State.Ampler.perform`,
by which an instruction comes to the same with more to go on unless it breaks off for want of
something, and `Program.exists_ampler_run`, the same of whole runs. -/
namespace MailRoom

open Spec (OnFloor lying laid)

/-- What comes of something with more to go on: what came about comes about in the same way, and
what failed fails again, unless it failed for want of something. -/
inductive Follows (Want : ε → Prop) (Same : α → β → Prop) : Except ε α → Except ε β → Prop where
  | succeeds {value : α} {other : β} (same : Same value other) :
      Follows Want Same (.ok value) (.ok other)
  | fails (failure : ε) : Follows Want Same (.error failure) (.error failure)
  | wants {failure : ε} (want : Want failure) (other : Except ε β) :
      Follows Want Same (.error failure) other

namespace Follows

variable {ε α α' β β' : Type} {Want : ε → Prop} {Same : α → β → Prop} {Alike : α' → β' → Prop}
  {first : Except ε α} {second : Except ε β}

theorem refl {Same : α → α → Prop} (same : ∀ value, Same value value) (result : Except ε α) :
    Follows Want Same result result := by
  cases result with
  | ok value => exact .succeeds (same value)
  | error failure => exact .fails failure

theorem bind {rest : α → Except ε α'} {rest' : β → Except ε β'}
    (follows : Follows Want Same first second)
    (further : ∀ {value other}, Same value other →
      Follows Want Alike (rest value) (rest' other)) :
    Follows Want Alike (first >>= rest) (second >>= rest') := by
  cases follows with
  | succeeds same => exact further same
  | fails failure => exact .fails failure
  | wants want => exact .wants want _

/-- What does not depend on what there is more of. -/
theorem behind {rest : α → Except ε α'} {rest' : α → Except ε β'} (result : Except ε α)
    (further : ∀ value, Follows Want Alike (rest value) (rest' value)) :
    Follows Want Alike (result >>= rest) (result >>= rest') := by
  cases result with
  | ok value => exact further value
  | error failure => exact .fails failure

theorem map {change : α → α'} {change' : β → β'} (follows : Follows Want Same first second)
    (alike : ∀ {value other}, Same value other → Alike (change value) (change' other)) :
    Follows Want Alike (first.map change) (second.map change') := by
  cases follows with
  | succeeds same => exact .succeeds (alike same)
  | fails failure => exact .fails failure
  | wants want => exact .wants want _

theorem ofFault {Want : Break → Prop} {first : Except Fault α} {second : Except Fault β}
    (follows : Follows (fun fault => Want (.fault fault)) Same first second) :
    Follows Want Same (Break.ofFault first) (Break.ofFault second) := by
  cases follows with
  | succeeds same => exact .succeeds same
  | fails failure => exact .fails _
  | wants want => exact .wants want _

end Follows

/-- A fault for want of a tile or of a value on one. -/
def Fault.OfFloor (fault : Fault) : Prop :=
  fault.kind = "InvalidAddress" ∨ fault.kind = "TileEmpty"

/-- The same floor, or one with more tiles and values, where faults of the floor are among what a
run may be stopped by for want of something. -/
inductive Floor.Ampler (Want : Fault → Prop) (floor : Floor) : Floor → Prop where
  | same : Ampler Want floor floor
  | more {other : Floor} (size : floor.size ≤ other.size)
      (kept : ∀ tile value, lying floor tile = some value → lying other tile = some value)
      (want : ∀ fault : Fault, fault.OfFloor → Want fault) : Ampler Want floor other

/-- What lies on a tile, and what lies there on an ampler floor: the same, or something where
nothing was. -/
def Floor.Found (Want : Fault → Prop) (found other : Option Value) : Prop :=
  found = other ∨ found = none ∧ ∀ fault : Fault, fault.OfFloor → Want fault

namespace Floor.Ampler

variable {Want : Fault → Prop} {floor other : Floor}

theorem place (ampler : floor.Ampler Want other) (tile : Int) :
    Follows Want (fun tile tile' => tile.val = tile'.val)
      (floor.place tile) (other.place tile) := by
  cases ampler with
  | same => exact .refl (fun tile => Eq.refl tile.val) _
  | more size kept want =>
    by_cases inside : OnFloor floor tile
    · obtain ⟨natural, small⟩ := inside
      have inside' : OnFloor other tile := ⟨natural, by omega⟩
      obtain ⟨found, placed, value⟩ := Spec.place_onFloor ⟨natural, small⟩
      obtain ⟨found', placed', value'⟩ := Spec.place_onFloor inside'
      rw [placed, placed']
      exact .succeeds (by omega)
    · rw [Spec.place_offFloor inside]
      exact .wants (want (.outsideFloor tile floor.size) (.inl rfl)) _

theorem get (ampler : floor.Ampler Want other) {tile : Fin floor.size} {tile' : Fin other.size}
    (same : tile.val = tile'.val) : Found Want (floor.get tile) (other.get tile') := by
  cases ampler with
  | same => exact .inl (congrArg floor.get (Fin.ext same))
  | more size kept want =>
    cases there : floor.get tile with
    | none => exact .inr ⟨rfl, want⟩
    | some value =>
      left
      rw [← Spec.lying_val] at there
      rw [← Spec.lying_val, ← same]
      exact (kept _ _ there).symm

theorem peek (ampler : floor.Ampler Want other) (tile : Int) :
    Follows Want (Found Want) (floor.peek tile) (other.peek tile) :=
  (ampler.place tile).map ampler.get

theorem resolve (ampler : floor.Ampler Want other) (address : Address) :
    Follows Want (fun tile tile' => tile.val = tile'.val)
      (floor.resolve address) (other.resolve address) := by
  unfold Floor.resolve
  split
  · refine (ampler.peek address.tile).bind fun found => ?_
    rcases found with rfl | ⟨rfl, want⟩
    · split
      · exact .fails _
      · exact .fails _
      · exact ampler.place _
    · exact .wants (want (.unwrittenPointer address.tile) (.inr rfl)) _
  · exact ampler.place _

theorem readAt (ampler : floor.Ampler Want other) {tile : Fin floor.size}
    {tile' : Fin other.size} (same : tile.val = tile'.val) :
    Follows Want Eq (floor.readAt tile) (other.readAt tile') := by
  unfold Floor.readAt
  rcases ampler.get same with there | ⟨bare, want⟩
  · rw [there, same]
    exact .refl (fun _ => rfl) _
  · rw [bare]
    exact .wants (want (.unwrittenTile tile.val) (.inr rfl)) _

theorem set (ampler : floor.Ampler Want other) {tile : Fin floor.size} {tile' : Fin other.size}
    (same : tile.val = tile'.val) (value : Value) :
    (floor.set tile value).Ampler Want (other.set tile' value) := by
  cases ampler with
  | same =>
    rw [Fin.ext same]
    exact .same
  | more size kept want =>
    refine .more (by simpa using size) (fun place found => ?_) want
    have inside : OnFloor floor tile.val := ⟨by omega, by omega⟩
    have inside' : OnFloor other tile.val := ⟨by omega, by omega⟩
    rw [Spec.set_eq_laid, Spec.set_eq_laid, ← same, Spec.lying_laid inside,
      Spec.lying_laid inside']
    split
    · exact id
    · exact kept place found

end Floor.Ampler

namespace Value

variable {Want : Fault → Prop} {bound wider : Int}

/-- The same bound, or a wider one, where overflows are among what a run may be stopped by for want
of something. -/
def Wider (Want : Fault → Prop) (bound wider : Int) : Prop :=
  bound = wider ∨ bound ≤ wider ∧ ∀ rule result, Want (.overflow rule result bound)

theorem Wider.check (widened : Wider Want bound wider) (rule : Opcode) (result : Int) :
    Follows Want (fun within within' => within.val = within'.val)
      (Within.check rule bound result) (Within.check rule wider result) := by
  rcases widened with rfl | ⟨above, want⟩
  · exact .refl (fun within => Eq.refl within.val) _
  · unfold Within.check
    by_cases inside : -bound ≤ result ∧ result ≤ bound
    · have inside' : -wider ≤ result ∧ result ≤ wider := by omega
      rw [dif_pos inside, dif_pos inside']
      exact .succeeds rfl
    · rw [dif_neg inside]
      exact .wants (want rule result) _

theorem Wider.add (widened : Wider Want bound wider) (left right : Value) :
    Follows Want (fun within within' => within.val = within'.val)
      (left.add bound right) (left.add wider right) :=
  .behind _ fun _ => widened.check _ _

theorem Wider.sub (widened : Wider Want bound wider) (left right : Value) :
    Follows Want (fun within within' => within.val = within'.val)
      (left.sub bound right) (left.sub wider right) :=
  .behind _ fun _ => widened.check _ _

theorem Wider.bump (widened : Wider Want bound wider) (delta : Int) (value : Value) :
    Follows Want (fun within within' => within.val = within'.val)
      (value.bump bound delta) (value.bump wider delta) := by
  cases value with
  | number value => exact widened.check _ _
  | letter char => exact .fails _

end Value

theorem Within.number_congr {bound wider : Int} {within : Within bound} {within' : Within wider}
    (same : within.val = within'.val) (small : bound ≤ 2147483647) (small' : wider ≤ 2147483647) :
    Value.number (within.toNumber small) = .number (within'.toNumber small') := by
  simp only [toNumber, same]

variable {Want : Break → Prop}

/-- The same limits, or ones at least as wide where running into the narrower ones is among what a
run may be stopped by for want of something. -/
structure Config.Ampler (Want : Break → Prop) (config other : Config) : Prop where
  bound : Value.Wider (fun fault => Want (.fault fault)) config.numberBound other.numberBound
  limit : config.stepLimit = other.stepLimit ∨
    config.stepLimit ≤ other.stepLimit ∧ Want (.fault (.stepLimit config.stepLimit))

/-- A state of a run and one of a run with more to go on. -/
structure State.Ampler (Want : Break → Prop) (state other : State) : Prop where
  pc : state.pc = other.pc
  hands : state.hands = other.hands
  floor : state.floor.Ampler (fun fault => Want (.fault fault)) other.floor
  inbox : state.inbox = other.inbox ∨ state.inbox <+: other.inbox ∧ Want .halt
  cursor : state.cursor = other.cursor
  outbox : state.outbox = other.outbox
  steps : state.steps = other.steps

namespace State.Ampler

variable {state other : State} {instruction : Instruction}

theorem requireHands (ampler : state.Ampler Want other) (rule : Opcode) :
    state.requireHands rule = other.requireHands rule := by
  simp only [State.requireHands, ampler.hands]

theorem requireNumber (ampler : state.Ampler Want other) (rule : Opcode) :
    state.requireNumber rule = other.requireNumber rule := by
  simp only [State.requireNumber, ampler.requireHands]

theorem operandTile (ampler : state.Ampler Want other) (instruction : Instruction) :
    Follows Want (fun tile tile' => tile.val = tile'.val)
      (instruction.operandTile state.floor) (instruction.operandTile other.floor) := by
  unfold Instruction.operandTile
  split
  · exact .fails _
  · exact (ampler.floor.resolve _).ofFault

theorem requireInbox (ampler : state.Ampler Want other) :
    Follows Want Eq state.requireInbox other.requireInbox := by
  unfold State.requireInbox
  rw [← ampler.cursor]
  cases there : state.inbox[state.cursor]? with
  | some value =>
    have there' : other.inbox[state.cursor]? = some value := by
      rcases ampler.inbox with same | ⟨⟨more, longer⟩, _⟩
      · rw [← same, there]
      · rw [← longer, List.getElem?_append_left (List.getElem?_eq_some_iff.mp there).1, there]
    rw [there']
    exact .succeeds rfl
  | none =>
    rcases ampler.inbox with same | ⟨_, want⟩
    · rw [← same, there]
      exact .fails _
    · exact .wants want _

/-- What an instruction has done, and what it has done with more to go on. -/
def Done (Want : Break → Prop) (done other : Bool × State) : Prop :=
  done.1 = other.1 ∧ done.2.Ampler Want other.2

theorem takeFromInbox (ampler : state.Ampler Want other) :
    Follows Want (Done Want) (Action.takeFromInbox.outcome state)
      (Action.takeFromInbox.outcome other) := by
  simp only [Action.outcome_takeFromInbox]
  refine ampler.requireInbox.bind fun same => ?_
  exact .succeeds ⟨rfl, { ampler with
    hands := congrArg some same, cursor := congrArg (· + 1) ampler.cursor }⟩

theorem putInOutbox (ampler : state.Ampler Want other) :
    Follows Want (Done Want) (Action.putInOutbox.outcome state)
      (Action.putInOutbox.outcome other) := by
  simp only [Action.outcome_putInOutbox, ← ampler.requireHands]
  exact .behind _ fun value =>
    .succeeds ⟨rfl, { ampler with outbox := congrArg (· ++ [value]) ampler.outbox }⟩

theorem copyFrom (ampler : state.Ampler Want other) :
    Follows Want (Done Want) ((Action.copyFrom instruction).outcome state)
      ((Action.copyFrom instruction).outcome other) := by
  simp only [Action.outcome_copyFrom]
  refine (ampler.operandTile instruction).bind fun same => ?_
  refine (ampler.floor.readAt same).ofFault.bind fun value => ?_
  exact .succeeds ⟨rfl, { ampler with hands := congrArg some value }⟩

theorem copyTo (ampler : state.Ampler Want other) :
    Follows Want (Done Want) ((Action.copyTo instruction).outcome state)
      ((Action.copyTo instruction).outcome other) := by
  simp only [Action.outcome_copyTo, ← ampler.requireHands]
  refine .behind _ fun value => ?_
  refine (ampler.operandTile instruction).bind fun same => ?_
  exact .succeeds ⟨rfl, { ampler with floor := ampler.floor.set same value }⟩

variable {config wider : Config}

theorem combine (ampler : state.Ampler Want other) (rule : Opcode)
    {operation : Value → Value → Except Fault (Within config.numberBound)}
    {operation' : Value → Value → Except Fault (Within wider.numberBound)}
    (operates : ∀ left right, Follows (fun fault => Want (.fault fault))
      (fun within within' => within.val = within'.val) (operation left right)
      (operation' left right)) :
    Follows Want (Done Want) ((Action.combine config rule operation instruction).outcome state)
      ((Action.combine wider rule operation' instruction).outcome other) := by
  simp only [Action.outcome_combine, ← ampler.requireHands]
  refine .behind _ fun hands => ?_
  refine (ampler.operandTile instruction).bind fun same => ?_
  refine (ampler.floor.readAt same).ofFault.bind fun {value _} alike => ?_
  subst alike
  refine (operates hands value).ofFault.bind fun result => ?_
  exact .succeeds ⟨rfl, { ampler with hands := congrArg some (Within.number_congr result _ _) }⟩

theorem bump (ampler : state.Ampler Want other) (limits : config.Ampler Want wider) (delta : Int) :
    Follows Want (Done Want) ((Action.bump config delta instruction).outcome state)
      ((Action.bump wider delta instruction).outcome other) := by
  simp only [Action.outcome_bump]
  refine (ampler.operandTile instruction).bind fun same => ?_
  refine (ampler.floor.readAt same).ofFault.bind fun {value _} alike => ?_
  subst alike
  refine (limits.bound.bump delta value).ofFault.bind fun result => ?_
  have bumped := Within.number_congr result
    (by have := config.bound_fits; omega) (by have := wider.bound_fits; omega)
  refine .succeeds ⟨rfl, { ampler with floor := ?_, hands := congrArg some bumped }⟩
  rw [← bumped]
  exact ampler.floor.set same _

theorem jumpIf (ampler : state.Ampler Want other) (rule : Opcode) (condition : Int → Bool) :
    Follows Want (Done Want) ((Action.jumpIf rule condition instruction).outcome state)
      ((Action.jumpIf rule condition instruction).outcome other) := by
  simp only [Action.outcome_jumpIf, ← ampler.requireNumber, ← ampler.pc]
  refine (Follows.refl (fun tested => Eq.refl tested) _).map fun same => ?_
  rw [same]
  exact ⟨rfl, { ampler with pc := rfl }⟩

/-- An instruction does the same with more to go on. -/
theorem handle (ampler : state.Ampler Want other) (limits : config.Ampler Want wider)
    (instruction : Instruction) :
    Follows Want (Done Want) ((Action.handle config instruction).outcome state)
      ((Action.handle wider instruction).outcome other) := by
  unfold Action.handle
  split
  · exact ampler.takeFromInbox
  · exact ampler.putInOutbox
  · exact ampler.copyFrom
  · exact ampler.copyTo
  · exact ampler.combine .add limits.bound.add
  · exact ampler.combine .sub limits.bound.sub
  · exact ampler.bump limits 1
  · exact ampler.bump limits (-1)
  · exact .succeeds ⟨rfl, { ampler with pc := rfl }⟩
  · exact ampler.jumpIf .jumpIfZero _
  · exact ampler.jumpIf .jumpIfNegative _
  · exact .fails _

/-- An instruction leads to the same with more to go on, unless it breaks off for want of
something. -/
theorem perform (ampler : state.Ampler Want other) (limits : config.Ampler Want wider) (pc : Int)
    (instruction : Instruction) :
    Follows Want (Ampler Want) (state.perform config pc instruction)
      (other.perform wider pc instruction) := by
  rw [State.perform_eq, State.perform_eq]
  refine (ampler.handle limits instruction).map fun {done other} same => ?_
  obtain ⟨jumped, after⟩ := same
  exact { after with
    pc := by rw [jumped, after.pc], steps := congrArg (· + 1) after.steps }

end State.Ampler

namespace Machine

variable {machine wider : Machine} {state other : State}

/-- A machine for the same program with limits at least as wide. -/
structure Ampler (Want : Break → Prop) (machine wider : Machine) : Prop where
  program : machine.program = wider.program
  config : machine.config.Ampler Want wider.config

/-- A turn is stopped for want of something: its instruction breaks off, or it is one too many. -/
inductive Stinted (Want : Break → Prop) (machine : Machine) (state : State) : Prop where
  | broken {pc : Int} {instruction : Instruction} {cause : Break}
      (found : machine.program.fetch state = .ok (pc, instruction))
      (breaks : state.perform machine.config pc instruction = .error cause) (want : Want cause)
  | spent {next : State} (moved : state.next machine.config machine.program = .ok next)
      (beyond : machine.config.stepLimit < next.steps)
      (want : Want (.fault (.stepLimit machine.config.stepLimit)))

theorem Stinted.turn_eq (stinted : machine.Stinted Want state) :
    ∃ cause pc location, Want cause ∧
      (machine.turn state).2 = some (cause.toStop pc state.steps location) := by
  cases stinted with
  | @broken pc instruction cause found breaks want =>
    refine ⟨cause, pc, instruction.location, want, ?_⟩
    simp only [turn_of_fetched found, turnAt, State.carryOut, breaks, mapError_error]
  | spent moved beyond want =>
    obtain ⟨pc, location, _, turned⟩ := turn_of_beyond moved beyond
    refine ⟨_, pc, location, want, ?_⟩
    rw [turned, State.steps_next moved]
    simp [Break.toStop]

theorem Ampler.fetch (machines : machine.Ampler Want wider) (ampler : state.Ampler Want other) :
    machine.program.fetch state = wider.program.fetch other := by
  simp only [Program.fetch, machines.program, ampler.pc]

/-- A turn comes to the same with more to go on, unless it is stopped for want of something. -/
theorem Ampler.turn (machines : machine.Ampler Want wider) (ampler : state.Ampler Want other) :
    (machine.turn state).1.Ampler Want (wider.turn other).1 ∧
        (wider.turn other).2 = (machine.turn state).2 ∨
      machine.Stinted Want state ∧ (machine.turn state).2.isSome ∧
        ((machine.turn state).1.Ampler Want other ∨
          (machine.turn state).1.Ampler Want (wider.turn other).1) := by
  have fetched := machines.fetch ampler
  cases found : machine.program.fetch state with
  | error reason =>
    rw [found] at fetched
    left
    simp only [Machine.turn, found, ← fetched]
    exact ⟨ampler, trivial⟩
  | ok place =>
    obtain ⟨pc, instruction⟩ := place
    rw [found] at fetched
    rw [turn_of_fetched found, turn_of_fetched fetched.symm]
    have follows := ampler.perform machines.config pc instruction
    cases performed : state.perform machine.config pc instruction with
    | error cause =>
      rw [performed] at follows
      generalize performed' : other.perform wider.config pc instruction = outcome at follows
      cases follows with
      | fails =>
        left
        simp only [turnAt, State.carryOut, performed, performed', mapError_error, ampler.steps]
        exact ⟨ampler, trivial⟩
      | wants want =>
        right
        simp only [turnAt, State.carryOut, performed, mapError_error]
        exact ⟨.broken found performed want, rfl, .inl ampler⟩
    | ok next =>
      rw [performed] at follows
      generalize performed' : other.perform wider.config pc instruction = outcome at follows
      cases follows with
      | @succeeds _ next' same =>
        have counted := same.steps
        simp only [turnAt, State.carryOut, performed, performed', mapError_ok]
        by_cases beyond : machine.config.stepLimit < next.steps
        · rw [if_pos beyond]
          rcases machines.config.limit with limit | ⟨_, want⟩
          · left
            rw [← limit, ← counted, if_pos beyond]
            exact ⟨same, rfl⟩
          · -- One step too many for the narrower limit, but perhaps not for the wider one.
            right
            have moved : state.next machine.config machine.program = .ok next := by
              rw [State.next_of_fetched found, State.carryOut, performed, mapError_ok]
            refine ⟨.spent moved beyond want, rfl, .inr ?_⟩
            split <;> exact same
        · left
          have within : ¬wider.config.stepLimit < next'.steps := by
            rcases machines.config.limit with limit | ⟨above, _⟩ <;> omega
          rw [if_neg beyond, if_neg within]
          exact ⟨same, rfl⟩

end Machine

namespace Session

variable {machine wider : Machine} {session other : Session}

/-- A session that nobody watches and one like it with more to go on. -/
structure Ampler (Want : Break → Prop) (session other : Session) : Prop where
  silent : session.audience.Silent
  silent' : other.audience.Silent
  state : session.state.Ampler Want other.state

theorem Ampler.abreast (machines : machine.Ampler Want wider) (ampler : Ampler Want session other) :
    Abreast machine wider (Ampler Want) (fun session => machine.Stinted Want session.state) session
      other := by
  obtain ⟨silent, silent', states⟩ := ampler
  rw [Abreast, step_silent silent, step_silent silent']
  rcases machines.turn states with ⟨same, stops⟩ | ⟨stinted, stopped, unmoved | moved⟩
  · exact .inl ⟨⟨silent, silent', same⟩, stops⟩
  · exact .inr ⟨stinted, stopped, .inl ⟨silent, silent', unmoved⟩⟩
  · exact .inr ⟨stinted, stopped, .inr ⟨silent, silent', moved⟩⟩

end Session

/-- A program that a text gives, run twice, once with more to go on. The outbox of the one run is
the beginning of the other's, and both end with the same outbox and verdict unless the one with less
was stopped for want of something. -/
theorem Program.exists_ampler_run {file text : String} {mnemonics : Mnemonics}
    {machine wider : Machine} (parsed : Program.parse file text mnemonics = .ok machine.program)
    (machines : machine.Ampler Want wider) {start start' : State}
    (sound : start.Sound machine.program) (sound' : start'.Sound wider.program)
    (ampler : start.Ampler Want start') :
    ∃ passed last last' reason verdict verdict',
      Session.Run machine (machine.session .empty start) passed last reason ∧
      reason.verdict last.state.steps = .ok verdict ∧
      (machine.session .empty start).execute machine = (last, .ok verdict) ∧
      (wider.session .empty start').execute wider = (last', .ok verdict') ∧
      last.state.outbox <+: last'.state.outbox ∧
      ((∃ state, machine.turn state = (last.state, some reason) ∧ machine.Stinted Want state) ∨
        last'.state.outbox = last.state.outbox ∧ verdict' = verdict) := by
  have silent : (machine.session .empty start).audience.Silent := Audience.silent_empty
  obtain ⟨passed, last, reason, verdict, course, judged, executed⟩ :=
    @exists_judged_run file text mnemonics machine parsed start sound
  obtain ⟨passed', last', reason', verdict', course', judged', executed'⟩ :=
    @exists_judged_run file text mnemonics wider (machines.program ▸ parsed) start' sound'
  have sessions : Session.Ampler Want (machine.session .empty start)
      (wider.session .empty start') := ⟨silent, silent, ampler⟩
  obtain ⟨_, _, _, again, ⟨reached, member, there⟩, ends⟩ :=
    course.outlived (Session.Ampler.abreast machines) sessions
  cases again.run_eq.symm.trans course'.run_eq
  refine ⟨passed, last, last', reason, verdict, verdict', course, judged, executed, executed', ?_, ?_⟩
  · rw [there.state.outbox]
    exact again.outbox_grows (machines.program ▸ parse_formed parsed) reached member
  · rcases ends with ⟨visited, member, stopped, stinted⟩ | ⟨same, rfl⟩
    · have quiet := (course.silent silent).2 visited member
      exact .inl ⟨visited.state, (Session.step_eq_silent quiet stopped).1, stinted⟩
    · rw [← same.state.steps] at judged'
      exact .inr ⟨same.state.outbox.symm, Except.ok.inj (judged'.symm.trans judged)⟩

end MailRoom
