import MailRoom.Proofs.RegistrationOrder
import MailRoom.Proofs.StepHistory

/-! Sessions whose observers do nothing but take note. Main statements: `Session.step_of_deed` and
`Session.step_in_vain`, by which a step makes the calls around its instruction and notes it in the
log, and `Session.execute_notes`, by which a whole run makes the calls and leaves the log of what it
carries out. -/
namespace MailRoom

def State.glimpse (state : State) : Glimpse := ⟨state.pc, state.steps, state.hands⟩

def Request.call (request : Request) (occasion : Occasion) : Call :=
  ⟨request.topic, request.name, occasion⟩

def Request.wanted (request : Request) (occasion : Occasion) : Bool :=
  Audience.wants occasion (.ofRequest request)

def Occasion.isStep : Occasion → Bool
  | .step .. => true
  | _ => false

/-- A rule whose period divides the number of a step. -/
def Topic.strikes (step : Int) : Topic → Bool
  | .event _ => false
  | .every period => 0 < period ∧ period ∣ step

theorem Request.wanted_step {request : Request} (rule : request.isRule = true)
    (step instruction : Int) (opcode : Opcode) (location : Option Location) :
    request.wanted (.step step instruction opcode location) = request.topic.strikes step := by
  obtain ⟨period, periodic, positive⟩ := exists_period rule
  simp only [wanted, Audience.wants, Handler.ofRequest, periodic, Topic.strikes, positive, true_and,
    Int.dvd_iff_emod_eq_zero]

namespace Roster

structure Idle (roster : Roster) : Prop where
  planless : ∀ slot, ∀ request ∈ roster slot, request.plan = []
  rules : ∀ request ∈ roster .rules, request.isRule = true

variable (roster : Roster)

def told (event : Event) (occasion : Occasion) : List Call :=
  (roster (.event event)).map (·.call occasion)

/-- The calls of those for whose period a step is due. -/
def ticked (step : Nat) (occasion : Occasion) : List Call :=
  ((roster .rules).filter (·.topic.strikes step)).map (·.call occasion)

def announced (state : State) (instruction : Instruction) : List Call :=
  roster.told .beforeInstruction (.instruction state.glimpse instruction)

def acknowledged (pc : Int) (instruction : Instruction) (state : State) (step : Nat) : List Call :=
  roster.told .afterInstruction (.instruction state.glimpse instruction) ++
    roster.ticked step (.step step pc instruction.opcode instruction.location)

/-- The calls around an instruction that is carried out as so many-eth. -/
def around (deed : Deed) (step : Nat) : List Call :=
  roster.announced deed.before deed.instruction ++
    roster.acknowledged deed.pc deed.instruction deed.after step

end Roster

theorem Request.idle_roster {requests : List Request}
    (recording : ∀ request ∈ requests, request.plan = []) : (roster requests).Idle where
  planless _ request member := recording request (mem_of_mem_roster member)
  rules _ member := (List.mem_filter.mp member).2

/-- An observer after those of a kind have been called once. -/
def Handler.tally (called : Handler → Bool) (handler : Handler) : Handler :=
  if called handler then handler.called else handler

@[simp] theorem Handler.request_tally (called : Handler → Bool) (handler : Handler) :
    (handler.tally called).request = handler.request := by
  unfold tally
  split <;> rfl

/-- A register after one call of each observer of a kind on a list. -/
def Registry.tally (registry : Registry) (slot : Slot) (called : Handler → Bool) : Registry :=
  registry.recount slot ((registry.get slot).map (Handler.tally called)) (by simp)

theorem Registry.listed_tally (registry : Registry) (slot : Slot) (called : Handler → Bool) :
    (registry.tally slot called).listed = registry.listed :=
  listed_recount _

theorem Registry.tally_congr {registry : Registry} {slot : Slot} {called other : Handler → Bool}
    (same : ∀ handler ∈ registry.get slot, called handler = other handler) :
    registry.tally slot called = registry.tally slot other :=
  eq_of_lists <| congrArg (registry.toHandlerLists.set slot) <| List.map_congr_left
    fun handler member => by simp only [Handler.tally, same handler member]

namespace Audience

variable {roster : Roster} {before between after audience : Audience} {slot : Slot}
  {occasion : Occasion} {position : Nat} {handler : Handler} {calls further : List Call}

/-- Calls have been made, and the lists are those that they were. -/
structure Notes (roster : Roster) (before : Audience) (calls : List Call) (after : Audience) :
    Prop where
  listed : after.registry.listed = roster
  calls : after.calls = calls.reverse ++ before.calls

theorem Notes.trans (first : before.Notes roster calls between)
    (second : between.Notes roster further after) :
    before.Notes roster (calls ++ further) after :=
  ⟨second.listed, by rw [second.calls, first.calls, List.reverse_append, List.append_assoc]⟩

theorem drop_found (found : (audience.registry.get slot)[position]? = some handler) :
    (audience.registry.get slot).drop position =
      handler :: (audience.registry.get slot).drop (position + 1) := by
  rw [List.drop_eq_getElem?_toList_append, found]
  rfl

/-- If nobody does anything when called, those from a position on are called once each, as far as
they want to be. -/
theorem walk_from_quiet
    (quiet : ∀ handler ∈ (audience.registry.get slot).drop position,
      wants occasion handler = true → handler.due = []) :
    ∃ registry, audience.walk slot occasion position =
        (⟨registry, ((((audience.registry.get slot).drop position).filter (wants occasion)).map
          (·.request.call occasion)).reverse ++ audience.calls⟩, none) ∧
      registry.toHandlerLists = audience.registry.toHandlerLists.set slot
        ((audience.registry.get slot).take position ++
          ((audience.registry.get slot).drop position).map (Handler.tally (wants occasion))) := by
  fun_induction Audience.walk slot occasion position audience with
  | case1 position audience ended =>
    have past := List.getElem?_eq_none_iff.mp ended
    exact ⟨audience.registry, by simp [List.drop_eq_nil_of_le past],
      by simp [List.drop_eq_nil_of_le past, List.take_of_length_le past]⟩
  | case2 position audience handler found wanted noted registry stop played =>
    rw [drop_found found] at quiet
    simp [quiet handler List.mem_cons_self wanted, play] at played
  | case3 position audience handler found wanted noted registry played ih =>
    rw [drop_found found] at quiet ⊢
    have idle := quiet handler List.mem_cons_self wanted
    simp only [idle, play, Prod.mk.injEq, and_true] at played
    subst played
    have inside := (List.getElem?_eq_some_iff.mp found).1
    have counted : noted.registry.get slot =
        (audience.registry.get slot).set position handler.called := by
      simp [noted, note, Handler.countAt_of_found found]
    simp only [counted, List.drop_set_of_lt (Nat.lt_succ_self position), List.take_add_one,
      List.take_set_of_le (Nat.le_refl position), List.getElem?_set_self inside] at ih
    obtain ⟨registry, walked, lists⟩ :=
      ih fun other member => quiet other (List.mem_cons_of_mem _ member)
    refine ⟨registry, ?_, ?_⟩
    · rw [walked]
      simp [noted, note, wanted, Request.call]
    · rw [lists]
      simp [noted, note, Registry.recount, Registry.put, wanted, Handler.tally]
  | case4 position audience handler found unwanted ih =>
    rw [drop_found found] at quiet ⊢
    obtain ⟨registry, walked, lists⟩ :=
      ih fun other member => quiet other (List.mem_cons_of_mem _ member)
    refine ⟨registry, ?_, ?_⟩
    · rw [walked]
      simp [unwanted]
    · rw [lists, List.take_add_one, found]
      simp [unwanted, Handler.tally]

theorem walk_quiet
    (quiet : ∀ handler ∈ audience.registry.get slot,
      wants occasion handler = true → handler.due = []) :
    audience.walk slot occasion 0 =
      (⟨audience.registry.tally slot (wants occasion),
        (((audience.registry.get slot).filter (wants occasion)).map
          (·.request.call occasion)).reverse ++ audience.calls⟩, none) := by
  obtain ⟨registry, walked, lists⟩ := @walk_from_quiet audience slot occasion 0 quiet
  obtain rfl : registry = audience.registry.tally slot (wants occasion) :=
    Registry.eq_of_lists lists
  exact walked

/-- Those from a position on are called, as far as they want to be. -/
theorem walk_notes (idle : roster.Idle) (listed : audience.registry.listed = roster) (slot : Slot)
    (occasion : Occasion) :
    ∃ after, audience.walk slot occasion 0 = (after, none) ∧
      audience.Notes roster (((roster slot).filter
        (·.wanted occasion)).map (·.call occasion)) after := by
  subst listed
  have quiet : ∀ handler ∈ audience.registry.get slot, wants occasion handler = true →
      handler.due = [] := fun handler member _ => by
    have planless := idle.planless slot handler.request (List.mem_map_of_mem member)
    simp [Handler.due, planless]
  refine ⟨_, walk_quiet quiet, audience.registry.listed_tally slot (wants occasion), ?_⟩
  rw [Registry.listed, List.filter_map, List.map_map]
  rfl

theorem wanted_of_event (event : occasion.isStep = false) (request : Request) :
    request.wanted occasion = true := by
  unfold Request.wanted wants
  split
  · cases event
  · rfl

theorem emit_notes (idle : roster.Idle) (listed : audience.registry.listed = roster) (event : Event)
    (plain : occasion.isStep = false) :
    ∃ after, audience.emit event occasion = (after, none) ∧
      audience.Notes roster (roster.told event occasion) after := by
  obtain ⟨after, walked, notes⟩ := walk_notes idle listed (.event event) occasion
  refine ⟨after, walked, ?_⟩
  rwa [List.filter_eq_self.mpr fun request _ => wanted_of_event plain request]
    at notes

theorem tick_notes (idle : roster.Idle) (listed : audience.registry.listed = roster) (step : Nat)
    (pc : Int) (opcode : Opcode) (location : Option Location) :
    ∃ after, audience.tick (.step step pc opcode location) = (after, none) ∧
      audience.Notes roster (roster.ticked step (.step step pc opcode location)) after := by
  obtain ⟨after, walked, notes⟩ := walk_notes idle listed .rules (.step step pc opcode location)
  refine ⟨after, walked, ?_⟩
  have due : ∀ request ∈ roster .rules,
      request.wanted (.step step pc opcode location) = request.topic.strikes step :=
    fun request member => Request.wanted_step (idle.rules request member) step pc opcode location
  rwa [List.filter_congr due] at notes

end Audience

namespace Session

variable {machine : Machine} {roster : Roster} {audience : Audience} {pc : Int}
  {instruction : Instruction}

@[simp] theorem glimpse_eq (session : Session) : session.glimpse = session.state.glimpse := rfl

section Step

variable (state : State) (log : Log) (idle : roster.Idle)
  (listed : audience.registry.listed = roster)

include idle listed

theorem emit_notes (event : Event) (occasion : Occasion) (plain : occasion.isStep = false) :
    ∃ after, emit ⟨state, log, audience⟩ event occasion = (⟨state, log, after⟩, none) ∧
      audience.Notes roster (roster.told event occasion) after := by
  obtain ⟨after, emitted, notes⟩ := Audience.emit_notes idle listed event plain
  exact ⟨after, by simp only [emit, attend, emitted], notes⟩

theorem announce_notes : ∃ after,
    announce machine pc instruction ⟨state, log, audience⟩ =
      (⟨state, log.record (machine.entry pc instruction state), after⟩, none) ∧
    audience.Notes roster (roster.announced state instruction) after :=
  emit_notes state (log.record (machine.entry pc instruction state)) idle listed .beforeInstruction
    (.instruction state.glimpse instruction) rfl

theorem acknowledge_notes : ∃ after,
    acknowledge pc instruction ⟨state, log, audience⟩ = (⟨state, log, after⟩, none) ∧
    audience.Notes roster (roster.acknowledged pc instruction state state.steps) after := by
  obtain ⟨between, emitted, first⟩ := emit_notes state log idle listed .afterInstruction
    (.instruction state.glimpse instruction) rfl
  obtain ⟨after, ticked, second⟩ := Audience.tick_notes idle first.listed state.steps pc
    instruction.opcode instruction.location
  refine ⟨after, ?_, first.trans second⟩
  simp only [acknowledge, glimpse_eq, emitted, Progress.andThen, tick, attend, ticked]

theorem step_of_deed {next : State} (found : machine.program.fetch state = .ok (pc, instruction))
    (carried : state.carryOut machine.config pc instruction = .ok next) : ∃ after,
    step machine ⟨state, log, audience⟩ =
      (⟨next, log.record (machine.entry pc instruction state), after⟩,
        if machine.config.stepLimit < next.steps then
          some (.fault ⟨.stepLimit machine.config.stepLimit, some pc, some (next.steps - 1),
            instruction.location⟩)
        else none) ∧
    audience.Notes roster (roster.around ⟨pc, instruction, state, next⟩ next.steps) after := by
  obtain ⟨between, announced, first⟩ := announce_notes state log idle listed
  obtain ⟨_, stepped⟩ := step_of_done found announced carried
  obtain ⟨after, acknowledged, second⟩ := acknowledge_notes next
    (log.record (machine.entry pc instruction state)) idle first.listed
  refine ⟨after, ?_, first.trans second⟩
  simp only [stepped, acknowledged, Progress.andThen, checkLimit]
  split <;> rfl

/-- A step that is stopped by its instruction makes the calls before it. -/
theorem step_in_vain {reason : Stop}
    (found : machine.program.fetch state = .ok (pc, instruction))
    (failed : state.carryOut machine.config pc instruction = .error reason) : ∃ after,
    step machine ⟨state, log, audience⟩ =
      (⟨state, log.record (machine.entry pc instruction state), after⟩, some reason) ∧
    audience.Notes roster (roster.announced state instruction) after := by
  obtain ⟨after, announced, notes⟩ := announce_notes state log idle listed
  exact ⟨after, step_of_error found announced failed, notes⟩

end Step

end Session

def Deed.entry (machine : Machine) (deed : Deed) : Entry :=
  machine.entry deed.pc deed.instruction deed.before

/-- What the log is told in a run: one entry for each instruction, also for one attempted in
vain. -/
def Machine.entries (machine : Machine) (deeds : List Deed) (reached : State)
    (attempt : Option (Int × Instruction)) : List Entry :=
  deeds.map (·.entry machine) ++
    attempt.toList.map fun (pc, instruction) => machine.entry pc instruction reached

namespace Roster

variable (roster : Roster)

/-- The calls of a run on its steps, counted from one on: those around each instruction that it
carries out, and those before one attempted in vain. -/
def throughout (deeds : List Deed) (reached : State) (attempt : Option (Int × Instruction)) :
    List Call :=
  ((deeds.zipIdx 1).flatMap fun (deed, step) => roster.around deed step) ++
    attempt.toList.flatMap fun (_, instruction) => roster.announced reached instruction

/-- The calls of a whole run: at its start, on its steps, on its error if there is one, and at its
end. -/
def protocol (start : State) (deeds : List Deed) (reached : State)
    (attempt : Option (Int × Instruction)) (error : Option Incident) : List Call :=
  roster.told .programStart (.start start.glimpse) ++
    roster.throughout deeds reached attempt ++
    error.toList.flatMap (fun incident => roster.told .onError (.error reached.glimpse incident)) ++
    roster.told .programEnd
      (.finish reached.glimpse (Verdict.status ⟨deeds.length, error⟩))

end Roster

namespace Session

variable {machine : Machine} {roster : Roster} {state reached : State} {audience : Audience}
  {deeds : List Deed} {attempt : Option (Int × Instruction)} {error : Option Incident}

/-- Within the limit a run goes along with the program left to itself, and makes the calls around
each instruction. -/
theorem run_along (log : Log) (idle : roster.Idle) (listed : audience.registry.listed = roster)
    (does : state.Does machine.config machine.program deeds reached)
    (within : reached.steps ≤ machine.config.stepLimit) : ∃ after,
    run machine ⟨state, log, audience⟩ =
      run machine ⟨reached, (deeds.map (·.entry machine)).foldl Log.record log, after⟩ ∧
    audience.Notes roster ((deeds.zipIdx (state.steps + 1)).flatMap
      fun (deed, step) => roster.around deed step) after := by
  induction does generalizing log audience with
  | nothing state => exact ⟨audience, rfl, listed, rfl⟩
  | @next state next reached pc instruction deeds found carried rest ih =>
    have counted := State.steps_carryOut carried
    have early : ¬machine.config.stepLimit < next.steps := by
      have total := rest.steps
      omega
    obtain ⟨between, stepped, first⟩ := step_of_deed state log idle listed found carried
    rw [if_neg early] at stepped
    obtain ⟨after, further, second⟩ :=
      ih (log.record (machine.entry pc instruction state)) first.listed within
    refine ⟨after, (run_of_step stepped).trans further, ?_⟩
    rw [List.zipIdx_cons, List.flatMap_cons, ← counted]
    exact first.trans second

theorem finish_notes (state : State) (log : Log) (idle : roster.Idle)
    (listed : audience.registry.listed = roster) (error : Option Incident) : ∃ after,
    finish ⟨state, log, audience⟩ error = (⟨state, log, after⟩, .ok ⟨state.steps, error⟩) ∧
    audience.Notes roster (roster.told .programEnd
      (.finish state.glimpse (Verdict.status ⟨state.steps, error⟩))) after := by
  obtain ⟨after, emitted, notes⟩ := emit_notes state log idle listed .programEnd
    (.finish state.glimpse (Verdict.status ⟨state.steps, error⟩)) rfl
  exact ⟨after, by simp only [finish, glimpse_eq, emitted], notes⟩

section Fresh

variable (log : Log) (idle : roster.Idle) (listed : audience.registry.listed = roster)
  (fresh : state.steps = 0) (does : state.Does machine.config machine.program deeds reached)

include idle listed fresh does

/-- A run that stops in front of an instruction that it can carry out no more. -/
theorem run_of_left (within : deeds.length ≤ machine.config.stepLimit)
    (gone : machine.program.fetch reached = .error .halt) : ∃ after,
    run machine ⟨state, log, audience⟩ =
      (⟨reached, (machine.entries deeds reached none).foldl Log.record log, after⟩, .halt) ∧
    audience.Notes roster (roster.throughout deeds reached none) after := by
  have total := does.steps
  rw [fresh, Nat.zero_add] at total
  obtain ⟨after, along, notes⟩ := run_along log idle listed does (total.trans_le within)
  rw [fresh] at notes
  have stopped (log : Log) :
      step machine ⟨reached, log, after⟩ = (⟨reached, log, after⟩, some .halt) := by
    simp only [step, gone]
  refine ⟨after, ?_, ?_⟩
  · rw [along, run_of_stop (stopped _)]
    simp [Machine.entries]
  · simpa [Roster.throughout] using notes

theorem run_in_vain {pc : Int} {instruction : Instruction} {reason : Stop}
    (within : deeds.length ≤ machine.config.stepLimit)
    (found : machine.program.fetch reached = .ok (pc, instruction))
    (failed : reached.carryOut machine.config pc instruction = .error reason) : ∃ after,
    run machine ⟨state, log, audience⟩ =
      (⟨reached, (machine.entries deeds reached (some (pc, instruction))).foldl Log.record log,
        after⟩, reason) ∧
    audience.Notes roster (roster.throughout deeds reached (some (pc, instruction))) after := by
  have total := does.steps
  rw [fresh, Nat.zero_add] at total
  obtain ⟨between, along, first⟩ := run_along log idle listed does (total.trans_le within)
  rw [fresh] at first
  obtain ⟨after, stepped, second⟩ := step_in_vain reached
    ((deeds.map (·.entry machine)).foldl Log.record log) idle first.listed found failed
  refine ⟨after, ?_, ?_⟩
  · rw [along, run_of_stop stepped]
    simp [Machine.entries]
  · simpa [Roster.throughout] using first.trans second

omit does in
theorem run_of_excess {earlier : List Deed} {between : State} {pc : Int} {instruction : Instruction}
    (does : state.Does machine.config machine.program earlier between)
    (full : earlier.length = machine.config.stepLimit)
    (found : machine.program.fetch between = .ok (pc, instruction))
    (carried : between.carryOut machine.config pc instruction = .ok reached) : ∃ after,
    run machine ⟨state, log, audience⟩ =
      (⟨reached, (machine.entries (earlier ++ [⟨pc, instruction, between, reached⟩]) reached
          none).foldl Log.record log, after⟩,
        .fault ⟨.stepLimit machine.config.stepLimit, some pc, some machine.config.stepLimit,
          instruction.location⟩) ∧
    audience.Notes roster
      (roster.throughout (earlier ++ [⟨pc, instruction, between, reached⟩]) reached none)
      after := by
  have total := does.steps
  rw [fresh, Nat.zero_add, full] at total
  have counted := State.steps_carryOut carried
  obtain ⟨heard, along, first⟩ := run_along log idle listed does total.le
  rw [fresh] at first
  obtain ⟨after, stepped, second⟩ := step_of_deed between
    ((earlier.map (·.entry machine)).foldl Log.record log) idle first.listed found carried
  have beyond : machine.config.stepLimit < reached.steps := by omega
  have last : (reached.steps : Int) - 1 = machine.config.stepLimit := by omega
  have place : reached.steps = 1 + earlier.length := by omega
  rw [if_pos beyond, last] at stepped
  rw [place] at second
  refine ⟨after, ?_, ?_⟩
  · rw [along, run_of_stop stepped]
    simp [Machine.entries, Deed.entry]
  · simpa [Roster.throughout, List.zipIdx_append] using first.trans second

/-- A run makes the calls and leaves the log of what it carries out. -/
theorem run_of_ends (ends : machine.Ends deeds reached attempt error) : ∃ after,
    run machine ⟨state, log, audience⟩ =
      (⟨reached, (machine.entries deeds reached attempt).foldl Log.record log, after⟩,
        error.elim .halt .fault) ∧
    audience.Notes roster (roster.throughout deeds reached attempt) after := by
  cases ends with
  | left within gone => exact run_of_left log idle listed fresh does within gone
  | dry within found takes dry halted =>
    exact run_in_vain log idle listed fresh does within found halted
  | fault within found failed other =>
    exact run_in_vain log idle listed fresh does within found failed
  | limit split full =>
    subst split
    obtain ⟨between, before, last⟩ := does.split
    cases last with
    | next found carried rest =>
      cases rest
      exact run_of_excess log idle listed fresh before full found carried

/-- A whole run comes to the verdict on what it carries out, makes the calls of its protocol and no
others, and leaves the log of it. -/
theorem execute_notes (ends : machine.Ends deeds reached attempt error) : ∃ after,
    execute machine ⟨state, log, audience⟩ =
      (⟨reached, (machine.entries deeds reached attempt).foldl Log.record log, after⟩,
        .ok ⟨deeds.length, error⟩) ∧
    audience.Notes roster (roster.protocol state deeds reached attempt error) after := by
  have total := does.steps
  rw [fresh, Nat.zero_add] at total
  obtain ⟨opened, started, first⟩ := emit_notes state log idle listed .programStart
    (.start state.glimpse) rfl
  obtain ⟨behind, ran, second⟩ := run_of_ends log idle first.listed fresh does ends
  have through := first.trans second
  generalize (machine.entries deeds reached attempt).foldl Log.record log = kept at ran ⊢
  cases error with
  | none =>
    obtain ⟨after, finished, third⟩ := finish_notes reached kept idle second.listed none
    refine ⟨after, ?_, ?_⟩
    · simp only [execute, glimpse_eq, started, ran, Option.elim, finished, total]
    · simpa [Roster.protocol, total] using through.trans third
  | some incident =>
    obtain ⟨told, reported, third⟩ := emit_notes reached kept idle second.listed .onError
      (.error reached.glimpse incident) rfl
    obtain ⟨after, finished, fourth⟩ := finish_notes reached kept idle third.listed (some incident)
    refine ⟨after, ?_, ?_⟩
    · simp only [execute, glimpse_eq, started, ran, Option.elim, reported, finished, total]
    · simpa [Roster.protocol, total] using (through.trans third).trans fourth

end Fresh

end Session

theorem Session.execute_of_ends {machine : Machine} {start reached : State} {deeds : List Deed}
    {attempt : Option (Int × Instruction)} {error : Option Incident} (fresh : start.steps = 0)
    (does : start.Does machine.config machine.program deeds reached)
    (ends : machine.Ends deeds reached attempt error) :
    ∃ last, (machine.session .empty start).execute machine = (last, .ok ⟨deeds.length, error⟩) ∧
      last.state = reached := by
  have idle : (Request.roster []).Idle :=
    Request.idle_roster (List.forall_mem_nil fun request : Request => request.plan = [])
  have listed : (⟨.ofRequests [], []⟩ : Audience).registry.listed = Request.roster [] :=
    Registry.listed_ofRequests []
  obtain ⟨_, executed, _⟩ :=
    execute_notes (.empty machine.capacity) idle listed fresh does ends
  exact ⟨_, executed, rfl⟩

theorem Program.exists_noted_run {file text : String} {mnemonics : Mnemonics} {machine : Machine}
    (parsed : Program.parse file text mnemonics = .ok machine.program)
    {room : Nat} {layout : List (Int × Json)} {inbox : List Json} {start : State}
    (started : State.ofJson room machine.config layout inbox = .ok start) {requests : List Request}
    (recording : ∀ request ∈ requests, request.plan = []) :
    ∃ deeds reached attempt error last,
      start.Does machine.config machine.program deeds reached ∧
      machine.Ends deeds reached attempt error ∧
      (machine.session ⟨.ofRequests requests, []⟩ start).execute machine =
        (last, .ok ⟨deeds.length, error⟩) ∧
      last.log = (machine.entries deeds reached attempt).foldl Log.record
        (.empty machine.capacity) ∧
      last.audience.calls.reverse =
        (Request.roster requests).protocol start deeds reached attempt error := by
  obtain ⟨sound, fresh⟩ := State.ofJson_sound started machine.program
  obtain ⟨deeds, reached, attempt, error, does, ends⟩ := exists_ends (parse_formed parsed) sound
  have listed : (⟨.ofRequests requests, []⟩ : Audience).registry.listed = Request.roster requests :=
    Registry.listed_ofRequests requests
  obtain ⟨after, executed, notes⟩ := Session.execute_notes (.empty machine.capacity)
    (Request.idle_roster recording) listed fresh does ends
  refine ⟨deeds, reached, attempt, error, _, does, ends, executed, rfl, ?_⟩
  rw [notes.calls, List.append_nil, List.reverse_reverse]

end MailRoom
