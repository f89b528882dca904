import MailRoom.Proofs.Recorders
import MailRoom.Proofs.RoundTrip

/-! Programs that pass the inbox on. Main statements: `Program.Follows.execute`, by which a
program that keeps to a pace ends with what the pace tells in its outbox, and
`Program.execute_passing`, by which a loop passes on everything that its limit leaves time for and a
row of copies one value for each copy. -/
namespace MailRoom

/-- What passes values on does nothing else: so many taken from the inbox, so many put in the
outbox, and the last that was taken in hands. -/
structure State.Passing (values : List Value) (taken put : Nat) (state : State) : Prop where
  inbox : state.inbox = values
  cursor : state.cursor = taken
  inside : taken ≤ values.length
  outbox : state.outbox = values.take put
  hands : ∀ place, taken = place + 1 → state.hands = values[place]?

namespace State.Passing

open Spec (after)

variable {config : Config} {values : List Value} {taken count : Nat} {state : State}
  {instruction : Instruction} {pc : Int}

theorem initial (floor : Floor) (values : List Value) :
    (State.initial floor values).Passing values 0 0 :=
  ⟨rfl, rfl, Nat.zero_le _, rfl, fun _ some => by cases some⟩

theorem take (passing : state.Passing values taken count) (takes : instruction.opcode = .inbox)
    (supplied : state.cursor < state.inbox.length) :
    (after instruction state pc).Passing values (taken + 1) count where
  inbox := passing.inbox
  cursor := by simp [after, takes, passing.cursor]
  inside := by rwa [passing.cursor, passing.inbox] at supplied
  outbox := by simp [after, takes, passing.outbox]
  hands place last := by
    obtain rfl := Nat.succ.inj last
    simp [after, Spec.handsAfter, takes, passing.inbox, passing.cursor]

theorem put (passing : state.Passing values (count + 1) count)
    (puts : instruction.opcode = .outbox) :
    (after instruction state pc).Passing values (count + 1) (count + 1) where
  inbox := passing.inbox
  cursor := by simp [after, puts, passing.cursor]
  inside := passing.inside
  outbox := by simp [after, puts, passing.outbox, passing.hands count rfl, List.take_add_one]
  hands place last := by
    simpa [after, Spec.handsAfter, puts] using passing.hands place last

theorem jump (passing : state.Passing values taken count) (jumps : instruction.opcode = .jump) :
    (after instruction state pc).Passing values taken count where
  inbox := passing.inbox
  cursor := by simp [after, jumps, passing.cursor]
  inside := passing.inside
  outbox := by simp [after, jumps, passing.outbox]
  hands place last := by
    simpa [after, Spec.handsAfter, jumps] using passing.hands place last

theorem met_of_outbox (passing : state.Passing values (count + 1) count)
    (puts : instruction.opcode = .outbox) : Spec.Met config instruction state := by
  have held : state.hands ≠ none := by
    rw [passing.hands count rfl, List.getElem?_eq_getElem passing.inside]
    exact Option.some_ne_none _
  simp [Spec.Met, Spec.demands, puts, Spec.lacks, held]

end State.Passing

/-- A pace tells, for so many instructions carried out, the place that is reached and the numbers of
values taken and put. -/
structure Pace where
  place : Nat → Nat
  taken : Nat → Nat
  put : Nat → Nat

/-- What an opcode and its target have to do with the pace at which they are carried out. -/
inductive Pace.Beat (pace : Pace) (count : Nat) : Opcode × Option Int → Prop where
  | take (onward : pace.place (count + 1) = pace.place count + 1)
      (taken : pace.taken (count + 1) = pace.taken count + 1)
      (put : pace.put (count + 1) = pace.put count) : Beat pace count (.inbox, none)
  | put (onward : pace.place (count + 1) = pace.place count + 1)
      (last : pace.taken count = pace.put count + 1)
      (taken : pace.taken (count + 1) = pace.taken count)
      (put : pace.put (count + 1) = pace.put count + 1) : Beat pace count (.outbox, none)
  | jump (taken : pace.taken (count + 1) = pace.taken count)
      (put : pace.put (count + 1) = pace.put count) :
      Beat pace count (.jump, some (pace.place (count + 1) : Int))

/-- A program by its opcodes and the targets of its jumps. -/
def Program.code (program : Program) : List (Opcode × Option Int) :=
  program.instructions.map fun instruction => (instruction.opcode, instruction.target)

/-- A program keeps to a pace that starts from nothing. -/
structure Program.Follows (program : Program) (pace : Pace) : Prop where
  start : pace.place 0 = 0 ∧ pace.taken 0 = 0 ∧ pace.put 0 = 0
  beat : ∀ count step, program.code[pace.place count]? = some step → pace.Beat count step

/-- A state that is reached at a pace after so many instructions. -/
structure Pace.Reaches (pace : Pace) (values : List Value) (count : Nat) (state : State) : Prop where
  place : state.pc = some (pace.place count : Int)
  passing : state.Passing values (pace.taken count) (pace.put count)

section Pace

variable {config : Config} {program : Program} {pace : Pace} {values : List Value} {count : Nat}
  {start state next reached : State} {pc : Int} {instruction : Instruction} {deeds : List Deed}

theorem Program.Follows.beat_of_fetch (follows : program.Follows pace)
    (reaches : pace.Reaches values count state)
    (found : program.fetch state = .ok (pc, instruction)) :
    pc = pace.place count ∧ pace.Beat count (instruction.opcode, instruction.target) := by
  obtain ⟨coming, _, there⟩ := Program.fetch_eq_ok found
  obtain rfl : pc = pace.place count := Option.some.inj (coming.symm.trans reaches.place)
  refine ⟨rfl, follows.beat count _ ?_⟩
  rw [Int.toNat_natCast] at there
  simp [Program.code, there]

theorem Pace.Beat.met (beat : pace.Beat count (instruction.opcode, instruction.target))
    (reaches : pace.Reaches values count state) : Spec.Met config instruction state := by
  have passing := reaches.passing
  generalize step : (instruction.opcode, instruction.target) = pair at beat
  cases beat with
  | take onward taken put => simp [Spec.Met, Spec.demands, (Prod.mk.inj step).1]
  | put onward last taken put =>
    rw [last] at passing
    exact passing.met_of_outbox (Prod.mk.inj step).1
  | jump taken put => simp [Spec.Met, Spec.demands, (Prod.mk.inj step).1]

/-- An instruction that is carried out at a pace goes on at it. -/
theorem Pace.Beat.reaches_after
    (beat : pace.Beat count (instruction.opcode, instruction.target))
    (reaches : pace.Reaches values count state)
    (supplied : instruction.opcode = .inbox → state.cursor < state.inbox.length) :
    pace.Reaches values (count + 1) (Spec.after instruction state (pace.place count)) := by
  have passing := reaches.passing
  generalize step : (instruction.opcode, instruction.target) = pair at beat
  cases beat with
  | take onward taken put =>
    obtain ⟨opcode, _⟩ := Prod.mk.inj step
    refine ⟨by simp [Spec.after, Spec.jumps, opcode, onward], ?_⟩
    rw [taken, put]
    exact passing.take opcode (supplied opcode)
  | put onward last taken put =>
    obtain ⟨opcode, _⟩ := Prod.mk.inj step
    refine ⟨by simp [Spec.after, Spec.jumps, opcode, onward], ?_⟩
    rw [last] at passing
    rw [taken, put, last]
    exact passing.put opcode
  | jump taken put =>
    obtain ⟨opcode, target⟩ := Prod.mk.inj step
    refine ⟨by simp [Spec.after, Spec.jumps, opcode, target], ?_⟩
    rw [taken, put]
    exact passing.jump opcode

/-- A program that keeps to a pace reaches at every time what the pace tells. -/
theorem Program.Follows.reaches (follows : program.Follows pace) (formed : program.Formed)
    (does : start.Does config program deeds reached) (begins : pace.Reaches values count start) :
    pace.Reaches values (count + deeds.length) reached := by
  induction does generalizing count with
  | nothing state => exact begins
  | next found carried rest ih =>
    obtain ⟨rfl, beat⟩ := follows.beat_of_fetch begins found
    obtain ⟨_, supplied, rfl⟩ :=
      Spec.outcome_eq_next.mp (State.outcome_of_carried formed found carried)
    have further := ih (beat.reaches_after begins supplied)
    rwa [Nat.add_right_comm] at further

theorem Pace.Reaches.place_le (reaches : pace.Reaches values count reached)
    (formed : program.Formed) (sound : start.Sound program)
    (does : start.Does config program deeds reached) : pace.place count ≤ program.code.length := by
  obtain ⟨pc, coming, _, inside⟩ := (Program.advance_sound formed sound does.advances).pc
  obtain rfl : pc = pace.place count := Option.some.inj (coming.symm.trans reaches.place)
  rw [Program.code, List.length_map]
  omega

end Pace

/-- How a program that keeps to a pace comes to its end: it is left behind its last instruction,
finds nothing more in the inbox, or has carried out one instruction too many. -/
inductive Machine.Finishes (machine : Machine) (pace : Pace) (values : List Value) :
    Nat → Option Incident → Prop where
  | left {count : Nat} (within : count ≤ machine.config.stepLimit)
      (behind : pace.place count = machine.program.code.length) :
      Finishes machine pace values count none
  | dry {count : Nat} {target : Option Int} (within : count ≤ machine.config.stepLimit)
      (coming : machine.program.code[pace.place count]? = some (.inbox, target))
      (all : pace.taken count = values.length) : Finishes machine pace values count none
  | limit {count : Nat} {incident : Incident} (excess : count = machine.config.stepLimit + 1)
      (fault : incident.fault = .stepLimit machine.config.stepLimit) :
      Finishes machine pace values count (some incident)

/-- A program that keeps to a pace never fails: it comes to one of the ends that the pace and its
limit leave it. -/
theorem Program.Follows.finishes {machine : Machine} {pace : Pace} {values : List Value}
    {reached : State} {deeds : List Deed} {attempt : Option (Int × Instruction)}
    {error : Option Incident} (follows : machine.program.Follows pace)
    (formed : machine.program.Formed) (inside : pace.place deeds.length ≤ machine.program.code.length)
    (reaches : pace.Reaches values deeds.length reached)
    (ends : machine.Ends deeds reached attempt error) :
    machine.Finishes pace values deeds.length error := by
  cases ends with
  | left within gone =>
    refine .left within (Nat.le_antisymm inside (Nat.le_of_not_lt fun early => ?_))
    rw [Program.code, List.length_map] at early
    have natural : ¬(pace.place deeds.length : Int) < 0 := by omega
    simp [Program.fetch, reaches.place, natural, List.getElem?_eq_getElem early] at gone
  | @dry _ instruction within found takes dry halted =>
    obtain ⟨_, natural, there⟩ := Program.fetch_eq_ok found
    obtain ⟨rfl, _⟩ := follows.beat_of_fetch reaches found
    rw [reaches.passing.inbox, reaches.passing.cursor] at dry
    rw [Int.toNat_natCast] at there
    have coming : machine.program.code[pace.place deeds.length]? =
        some (.inbox, instruction.target) := by
      rw [Program.code, List.getElem?_map, there, ← takes]
      rfl
    exact .dry within coming (Nat.le_antisymm reaches.passing.inside dry)
  | fault within found failed other =>
    obtain ⟨_, beat⟩ := follows.beat_of_fetch reaches found
    have complete := (formed _ (State.mem_of_fetch found)).complete
    exact absurd failed (State.not_fault_of_met complete (beat.met reaches) _)
  | limit split full => exact .limit (by simp [split, full]) rfl

theorem Program.Follows.execute {machine : Machine} {pace : Pace} {values : List Value}
    {room : Nat} {layout : List (Int × Value)} {start : State} (follows : machine.program.Follows pace)
    (formed : machine.program.Formed)
    (started : State.start room machine.config layout values = .ok start) :
    ∃ last steps error,
      (machine.session .empty start).execute machine = (last, .ok ⟨steps, error⟩) ∧
      machine.Finishes pace values steps error ∧
      pace.place steps ≤ machine.program.code.length ∧ pace.taken steps ≤ values.length ∧
      last.state.outbox = values.take (pace.put steps) := by
  obtain ⟨floor, _, rfl⟩ := map_eq_ok.mp started
  have sound := State.initial_sound floor values machine.program
  obtain ⟨deeds, reached, attempt, error, does, ends⟩ := exists_ends formed sound
  obtain ⟨place, taken, put⟩ := follows.start
  have begins : pace.Reaches values 0 (.initial floor values) := by
    refine ⟨by rw [place]; rfl, ?_⟩
    rw [taken, put]
    exact .initial floor values
  have reaches := follows.reaches formed does begins
  rw [Nat.zero_add] at reaches
  have inside := reaches.place_le formed sound does
  obtain ⟨last, executed, same⟩ := Session.execute_of_ends rfl does ends
  exact ⟨last, _, _, executed, follows.finishes formed inside reaches ends, inside,
    reaches.passing.inside, same ▸ reaches.passing.outbox⟩

theorem Program.formed_of_code {program : Program}
    (each : ∀ step ∈ program.code,
      step.1.shape? = some .none ∧ step.2 = none ∨ step = (.jump, some 0)) : program.Formed := by
  intro instruction member
  rcases each _ (List.mem_map_of_mem member) with ⟨shape, target⟩ | jumps
  · simp only at shape target
    exact ⟨⟨by simp [shape], by simp [shape], by simp [shape]⟩, by simp [target]⟩
  · obtain ⟨opcode, target⟩ := Prod.mk.inj jumps
    exact ⟨⟨by simp [opcode, Opcode.shape?], by simp [opcode, Opcode.shape?],
      fun _ => ⟨0, target⟩⟩, by simp [target]⟩

def Program.loopCode : List (Opcode × Option Int) :=
  [(.inbox, none), (.outbox, none), (.jump, some 0)]

def Program.rowCode (copies : Nat) : List (Opcode × Option Int) :=
  (List.replicate copies [(.inbox, none), (.outbox, none)]).flatten

def Pace.loop : Pace where
  place count := count % 3
  taken count := (count + 2) / 3
  put count := (count + 1) / 3

def Pace.row : Pace where
  place count := count
  taken count := (count + 1) / 2
  put count := count / 2

namespace Pace

variable (count : Nat)

@[simp] theorem place_loop : loop.place count = count % 3 := rfl

@[simp] theorem taken_loop : loop.taken count = (count + 2) / 3 := rfl

@[simp] theorem put_loop : loop.put count = (count + 1) / 3 := rfl

@[simp] theorem place_row : row.place count = count := rfl

@[simp] theorem taken_row : row.taken count = (count + 1) / 2 := rfl

@[simp] theorem put_row : row.put count = count / 2 := rfl

end Pace

namespace Program

variable {program : Program}

theorem follows_loop (same : program.code = loopCode) : program.Follows .loop where
  start := ⟨rfl, rfl, rfl⟩
  beat count step found := by
    rw [same, Pace.place_loop] at found
    have cases : count % 3 = 0 ∨ count % 3 = 1 ∨ count % 3 = 2 := by omega
    rcases cases with first | second | third
    · obtain rfl : (.inbox, none) = step := by simpa [loopCode, first] using found
      apply Pace.Beat.take <;> simp <;> omega
    · obtain rfl : (.outbox, none) = step := by simpa [loopCode, second] using found
      apply Pace.Beat.put <;> simp <;> omega
    · obtain rfl : (.jump, some 0) = step := by simpa [loopCode, third] using found
      have again : ((Pace.loop.place (count + 1) : Nat) : Int) = 0 := by
        rw [Pace.place_loop]
        omega
      rw [← again]
      apply Pace.Beat.jump <;> simp <;> omega

/-- Even places take and odd ones put. -/
theorem getElem?_rowCode (copies index : Nat) :
    (rowCode copies)[index]? = if index < 2 * copies then
      some (if index % 2 = 0 then .inbox else .outbox, none) else none := by
  induction copies generalizing index with
  | zero => rfl
  | succ copies ih =>
    have split : rowCode (copies + 1) = (.inbox, none) :: (.outbox, none) :: rowCode copies := rfl
    -- Behind the first copy the parity is that of two places before.
    match index with
    | 0 => simp [split]
    | 1 => simp [split, show 1 < 2 * (copies + 1) by omega]
    | index + 2 =>
      have bound : index + 2 < 2 * (copies + 1) ↔ index < 2 * copies := by omega
      simp [split, ih, bound]

theorem length_rowCode (copies : Nat) : (rowCode copies).length = 2 * copies := by
  simp [rowCode, Nat.mul_comm]

theorem follows_row {copies : Nat} (same : program.code = rowCode copies) :
    program.Follows .row where
  start := ⟨rfl, rfl, rfl⟩
  beat count step found := by
    rw [same, getElem?_rowCode, Pace.place_row] at found
    split at found
    · obtain rfl := Option.some.inj found
      split
      · apply Pace.Beat.take <;> simp <;> omega
      · apply Pace.Beat.put <;> simp <;> omega
    · cases found

end Program

section Runs

variable {machine : Machine} {room : Nat} {layout : List (Int × Value)} {values : List Value}
  {start : State}

/-- The loop passes on all values, if the limit leaves three steps for each, and otherwise as many
as it can begin with. -/
theorem Program.execute_loop (same : machine.program.code = loopCode)
    (started : State.start room machine.config layout values = .ok start) :
    ∃ last verdict, (machine.session .empty start).execute machine = (last, .ok verdict) ∧
      (3 * values.length ≤ machine.config.stepLimit →
        verdict = ⟨3 * values.length, none⟩ ∧ last.state.outbox = values) ∧
      (machine.config.stepLimit < 3 * values.length →
        verdict.steps = machine.config.stepLimit + 1 ∧
        (∃ incident, verdict.error = some incident ∧
          incident.fault = .stepLimit machine.config.stepLimit) ∧
        last.state.outbox = values.take ((machine.config.stepLimit + 2) / 3)) := by
  have formed : machine.program.Formed :=
    formed_of_code (by simp [same, loopCode, Opcode.shape?])
  obtain ⟨last, steps, error, executed, finishes, _, begun, outbox⟩ :=
    (follows_loop same).execute formed started
  rw [Pace.taken_loop] at begun
  rw [Pace.put_loop] at outbox
  refine ⟨last, _, executed, ?_⟩
  cases finishes with
  | left within behind =>
    have behind : steps % 3 = 3 := by simpa [same, loopCode] using behind
    omega
  | dry within coming all =>
    rw [Pace.taken_loop] at all
    rw [same, Pace.place_loop] at coming
    -- Only the first of the three places takes.
    have phase : steps % 3 = 0 := by
      have cases : steps % 3 = 0 ∨ steps % 3 = 1 ∨ steps % 3 = 2 := by omega
      rcases cases with first | second | third
      · exact first
      · simp [loopCode, second] at coming
      · simp [loopCode, third] at coming
    obtain rfl : steps = 3 * values.length := by omega
    refine ⟨fun _ => ⟨rfl, ?_⟩, fun beyond => by omega⟩
    rw [outbox, List.take_of_length_le (by omega)]
  | limit excess fault =>
    subst excess
    exact ⟨fun enough => by omega, fun _ => ⟨rfl, ⟨_, rfl, fault⟩, outbox⟩⟩

/-- A row of copies passes on as many values as there are copies, or all of them. -/
theorem Program.execute_row {copies : Nat} (same : machine.program.code = rowCode copies)
    (within : 2 * copies ≤ machine.config.stepLimit)
    (started : State.start room machine.config layout values = .ok start) :
    ∃ last, (machine.session .empty start).execute machine =
        (last, .ok ⟨2 * min copies values.length, none⟩) ∧
      last.state.outbox = values.take (min copies values.length) := by
  have formed : machine.program.Formed := by
    refine formed_of_code fun step member => ?_
    rw [same, rowCode, List.mem_flatten] at member
    obtain ⟨copy, present, member⟩ := member
    obtain ⟨_, rfl⟩ := List.mem_replicate.mp present
    simp only [List.mem_cons, List.not_mem_nil, or_false] at member
    rcases member with rfl | rfl <;> exact .inl ⟨rfl, rfl⟩
  obtain ⟨last, steps, error, executed, finishes, inside, begun, outbox⟩ :=
    (follows_row same).execute formed started
  rw [Pace.place_row, same, length_rowCode] at inside
  rw [Pace.taken_row] at begun
  rw [Pace.put_row] at outbox
  have complete (even : steps = 2 * min copies values.length) (fine : error = none) :
      ∃ last, (machine.session .empty start).execute machine =
          (last, .ok ⟨2 * min copies values.length, none⟩) ∧
        last.state.outbox = values.take (min copies values.length) := by
    subst even fine
    rw [Nat.mul_div_cancel_left _ (by decide)] at outbox
    exact ⟨last, executed, outbox⟩
  cases finishes with
  | left within behind =>
    rw [Pace.place_row, same, length_rowCode] at behind
    exact complete (by omega) rfl
  | dry within coming all =>
    rw [Pace.taken_row] at all
    rw [Pace.place_row, same, getElem?_rowCode] at coming
    split at coming
    · have even : steps % 2 = 0 := by
        by_contra odd
        simp [odd] at coming
      exact complete (by omega) rfl
    · cases coming
  | limit excess fault => omega

end Runs

namespace Grammar

theorem renders_line {opcode : Opcode} {label : Option String} {shape : OperandShape}
    (spelled : Mnemonics.standard.spelling opcode = .ok opcode.name)
    (shaped : opcode.shape? = some shape) (operand : WritableOperand shape none label) :
    Renders .standard
      (List.replicate 4 ' ' ++ (Instruction.describe ⟨opcode, none, label, none, none⟩).toList ++
        ['\n'])
      [.instruction ⟨opcode, none, label, none, none⟩] := by
  obtain ⟨named, other⟩ := Mnemonics.standard_names opcode opcode.name spelled
  exact @renders_withSpelling .standard ⟨opcode, none, label, none, none⟩ opcode.name shape 4 0
    spelled named other shaped operand

def passingItems : List Item :=
  [.instruction ⟨.inbox, none, none, none, none⟩, .instruction ⟨.outbox, none, none, none, none⟩]

theorem renders_passing : Renders .standard "    INBOX\n    OUTBOX\n".toList passingItems :=
  (@renders_line .inbox _ _ rfl rfl .none).append (@renders_line .outbox _ _ rfl rfl .none)

end Grammar

namespace Program

def loopText : String := "a:\n    INBOX\n    OUTBOX\n    JUMP a\n"

def rowText (copies : Nat) : String :=
  String.join (List.replicate copies "    INBOX\n    OUTBOX\n")

theorem code_of_unlocated {program : Program} {instructions : List Instruction}
    (same : program.instructions.map Instruction.unlocated =
      instructions.map Instruction.unlocated) :
    program.code = instructions.map fun instruction => (instruction.opcode, instruction.target) := by
  have opened (instructions : List Instruction) :
      instructions.map (fun instruction => (instruction.opcode, instruction.target)) =
        (instructions.map Instruction.unlocated).map
          fun instruction => (instruction.opcode, instruction.target) := by
    rw [List.map_map]
    rfl
  rw [code, opened, same, ← opened]

theorem parse_loopText (file : String) :
    ∃ program, parse file loopText .standard = .ok program ∧ program.code = loopCode := by
  have named : Lexer.IsName "a" := ⟨⟨by decide +kernel, List.all_eq_true.mp (by decide +kernel)⟩,
    by decide⟩
  have label := @Grammar.renders_label .standard ⟨0, .label, "a"⟩ rfl named
  have jump := @Grammar.renders_line .jump (some "a") .label rfl rfl (.label named)
  have renders : Grammar.Renders .standard loopText.toList _ :=
    label.append (Grammar.renders_passing.append jump)
  obtain ⟨program, parsed, same⟩ := renders.parse Mnemonics.standard_native (by decide)
    (by decide) file
  exact ⟨program, parsed, (code_of_unlocated same).trans (by decide)⟩

theorem toList_rowText (copies : Nat) : (rowText copies).toList =
    (List.replicate copies "    INBOX\n    OUTBOX\n").flatMap String.toList := by
  simp [rowText]

theorem items_row (copies : List String) :
    Item.names (copies.flatMap fun _ => Grammar.passingItems) = [] ∧
      (∀ instruction ∈ Item.instructions (copies.flatMap fun _ => Grammar.passingItems),
        instruction.label = none) ∧
      ∀ labels, ((Item.instructions (copies.flatMap fun _ => Grammar.passingItems)).map
        (Instruction.aimed labels)).map
          (fun instruction => (instruction.opcode, instruction.target)) =
        rowCode copies.length := by
  induction copies with
  | nil => exact ⟨rfl, List.forall_mem_nil _, fun _ => rfl⟩
  | cons copy copies ih =>
    obtain ⟨names, free, code⟩ := ih
    exact ⟨names, List.forall_mem_cons.mpr ⟨rfl, List.forall_mem_cons.mpr ⟨rfl, free⟩⟩,
      fun labels => congrArg (rowCode 1 ++ ·) (code labels)⟩

/-- A row of copies is read as such. -/
theorem parse_rowText (copies : Nat) (file : String) :
    ∃ program, parse file (rowText copies) .standard = .ok program ∧
      program.code = rowCode copies := by
  let lines := List.replicate copies "    INBOX\n    OUTBOX\n"
  have renders : Grammar.Renders .standard (rowText copies).toList
      (lines.flatMap fun _ => Grammar.passingItems) := by
    rw [toList_rowText]
    exact Grammar.renders_flatMap fun line member =>
      (List.mem_replicate.mp member).2 ▸ Grammar.renders_passing
  obtain ⟨names, free, code⟩ := items_row lines
  obtain ⟨program, parsed, same⟩ := renders.parse Mnemonics.standard_native
    (names ▸ List.nodup_nil) (fun instruction member name label => by
      cases (free instruction member).symm.trans label) file
  refine ⟨program, parsed, (code_of_unlocated same).trans ?_⟩
  rw [code, List.length_replicate]

/-- What is passed on by a program that a text gives, started on any values and with nobody
watching. The loop passes on all of them in three steps each, or stops over its limit with as many
as it has begun with by then. A row of copies that fits into the limit passes on one value for each
copy, as long as there are any. -/
theorem execute_passing {room : Nat} {config : Config} {layout : List (Int × Value)}
    {values : List Value} {start : State}
    (started : State.start room config layout values = .ok start) (verbose : Bool)
    (capacity : Option Nat) :
    (∀ file, ∃ program, parse file loopText .standard = .ok program ∧ program.code = loopCode) ∧
    (∀ program : Program, program.code = loopCode →
      let machine : Machine := ⟨program, config, verbose, capacity⟩
      ∃ last verdict, (machine.session .empty start).execute machine = (last, .ok verdict) ∧
        (3 * values.length ≤ config.stepLimit →
          verdict = ⟨3 * values.length, none⟩ ∧ last.state.outbox = values) ∧
        (config.stepLimit < 3 * values.length →
          verdict.steps = config.stepLimit + 1 ∧
          (∃ incident, verdict.error = some incident ∧
            incident.fault = .stepLimit config.stepLimit) ∧
          last.state.outbox = values.take ((config.stepLimit + 2) / 3))) ∧
    ∀ copies, 2 * copies ≤ config.stepLimit →
      (∀ file, ∃ program, parse file (rowText copies) .standard = .ok program ∧
        program.code = rowCode copies) ∧
      ∀ program : Program, program.code = rowCode copies →
        let machine : Machine := ⟨program, config, verbose, capacity⟩
        ∃ last, (machine.session .empty start).execute machine =
            (last, .ok ⟨2 * min copies values.length, none⟩) ∧
          last.state.outbox = values.take (min copies values.length) := by
  refine ⟨parse_loopText, fun program same => ?_, fun copies within =>
    ⟨parse_rowText copies, fun program same => ?_⟩⟩
  · exact @execute_loop ⟨program, config, verbose, capacity⟩ _ layout values start same started
  · exact @execute_row ⟨program, config, verbose, capacity⟩ _ layout values start copies same within
      started

/-- A letter and a number under a limit of three steps: the loop is stopped with the letter passed
on, and so is done by one copy in a row. -/
theorem execute_passing_one :
    ∃ (config : Config) (start : State) (loop row : Program) (last last' : Session)
      (verdict : Verdict),
      config = ⟨1, 999, 3, by decide, by decide⟩ ∧
      State.start 9 config [(0, .letter 'y')] [.letter 'x', .number ⟨7, by decide, by decide⟩] =
        .ok start ∧
      parse "" loopText .standard = .ok loop ∧ parse "" (rowText 1) .standard = .ok row ∧
      Session.execute ⟨loop, config, false, none⟩
          (Machine.session ⟨loop, config, false, none⟩ .empty start) = (last, .ok verdict) ∧
      verdict.steps = 4 ∧ verdict.status = .runtimeError ∧ last.state.outbox = [.letter 'x'] ∧
      Session.execute ⟨row, config, false, none⟩
          (Machine.session ⟨row, config, false, none⟩ .empty start) = (last', .ok ⟨2, none⟩) ∧
      last'.state.outbox = [.letter 'x'] := by
  let config : Config := ⟨1, 999, 3, by decide, by decide⟩
  obtain ⟨reads, loops, rows⟩ := @execute_passing 9 config [(0, .letter 'y')]
    [.letter 'x', .number ⟨7, by decide, by decide⟩] _ rfl false none
  obtain ⟨loop, parsed, same⟩ := reads ""
  obtain ⟨last, verdict, executed, _, beyond⟩ := loops loop same
  obtain ⟨steps, ⟨incident, error, _⟩, outbox⟩ := beyond (by decide)
  obtain ⟨readsRow, runsRow⟩ := rows 1 (by decide)
  obtain ⟨row, parsed', same'⟩ := readsRow ""
  obtain ⟨last', executed', outbox'⟩ := runsRow row same'
  exact ⟨config, _, loop, row, last, last', verdict, rfl, rfl, parsed, parsed', executed, steps,
    by simp [Verdict.status, error], outbox.trans (by decide), executed', outbox'⟩

end Program

end MailRoom
