import MailRoom.Proofs.Recorders

/-! The log of a run that nobody watches. Main statement: `Program.execute_logged`, by which the log
holds the newest of the entries for the states that the run passes through, each of them about the
instruction to come. -/
namespace MailRoom

namespace Log

/-- The newest of some entries in their order, all of them or at most so many. -/
structure Newest (limit : Option Nat) (all kept : List Entry) : Prop where
  suffix : kept <:+ all
  length : kept.length = limit.elim all.length (min · all.length)

theorem foldl_record (capacity : Option Nat) (entries : List Entry) :
    entries.foldl record (.empty capacity) =
      ⟨capacity, capacity.elim entries.reverse entries.reverse.take⟩ := by
  induction entries using List.reverseRecOn with
  | nil => cases capacity <;> simp [empty]
  | append_singleton earlier entry ih =>
    rw [List.foldl_append, ih]
    cases capacity with
    | none => simp [record]
    | some capacity =>
      cases capacity <;> simp [record, List.take_take]

/-- A log keeps the newest entries of those it is told. -/
theorem newest_entries (capacity : Option Nat) (entries : List Entry) :
    Newest capacity entries (entries.foldl record (.empty capacity)).entries := by
  rw [foldl_record, Log.entries]
  cases capacity with
  | none => exact ⟨by simp, by simp⟩
  | some capacity =>
    refine ⟨?_, by simp⟩
    rw [← List.reverse_prefix, List.reverse_reverse]
    exact List.take_prefix capacity _

theorem newest_tail (log : Log) (count : Int) :
    Newest (some count.toNat) log.entries (log.tail count) :=
  ⟨List.reverse_suffix.mpr (List.take_prefix _ _), by simp [tail, entries]⟩

end Log

/-- The written tiles of a floor in ascending order, each with the text of what lies on it. -/
structure Floor.Written (floor : Floor) (tiles : List (Int × String)) : Prop where
  ascending : tiles.Pairwise fun first second => first.1 < second.1
  written : ∀ tile text, (tile, text) ∈ tiles ↔
    ∃ value, Spec.lying floor tile = some value ∧ value.text = text

theorem Floor.texts_written (floor : Floor) : floor.Written floor.texts where
  ascending := by
    rw [texts, List.pairwise_map]
    exact floor.ascending_snapshot.imp fun before => Int.ofNat_lt.mpr before
  written tile text := by
    simp only [texts, List.mem_map, Prod.exists, mem_snapshot, Prod.mk.injEq]
    constructor
    · rintro ⟨_, value, there, rfl, rfl⟩
      exact ⟨value, there, rfl⟩
    · rintro ⟨value, there, rfl⟩
      have natural : 0 ≤ tile := by
        by_contra negative
        simp [Spec.lying, negative] at there
      obtain ⟨place, rfl⟩ := Int.eq_ofNat_of_zero_le natural
      exact ⟨place, value, there, rfl, rfl⟩

namespace Machine

variable {machine : Machine} {start reached : State} {deeds : List Deed}
  {attempt : Option (Int × Instruction)} {error : Option Incident}

/-- An entry about a state: the number of the step, the instruction to come, what is in hands, and
the floor if the log is to show it. -/
structure Tells (machine : Machine) (state : State) (entry : Entry) : Prop where
  step : entry.step = state.steps
  instruction : ∃ pc instruction, machine.program.fetch state = .ok (pc, instruction) ∧
    entry.instruction = pc ∧ entry.rule = instruction.opcode.name
  hands : entry.hands = state.hands.map Value.text
  shown : machine.verbose = true → ∃ tiles, entry.floor = some tiles ∧ state.floor.Written tiles
  hidden : machine.verbose = false → entry.floor = none

theorem entry_tells {state : State} {pc : Int} {instruction : Instruction}
    (found : machine.program.fetch state = .ok (pc, instruction)) :
    machine.Tells state (machine.entry pc instruction state) where
  step := rfl
  instruction := ⟨pc, instruction, found, rfl, rfl⟩
  hands := rfl
  shown verbose := ⟨state.floor.texts, if_pos verbose, state.floor.texts_written⟩
  hidden quiet := if_neg (Bool.not_eq_true _ ▸ quiet)

theorem length_entries : (machine.entries deeds reached attempt).length =
    deeds.length + if attempt.isSome then 1 else 0 := by
  cases attempt <;> simp [entries]

/-- Each entry of a run is about the state that the program has reached by then. -/
theorem entries_tell (does : start.Does machine.config machine.program deeds reached)
    (ends : machine.Ends deeds reached attempt error) {index : Nat} {entry : Entry}
    (found : (machine.entries deeds reached attempt)[index]? = some entry) :
    ∃ state, start.advance machine.config machine.program index = .ok state ∧
      machine.Tells state entry := by
  rcases Nat.lt_or_ge index deeds.length with inside | behind
  · rw [entries, List.getElem?_append_left (by simpa using inside), List.getElem?_map] at found
    obtain ⟨deed, taken, rfl⟩ := Option.map_eq_some_iff.mp found
    obtain ⟨advanced, coming, _⟩ := does.at_index taken
    exact ⟨deed.before, advanced, entry_tells coming⟩
  · rw [entries, List.getElem?_append_right (by simpa using behind)] at found
    cases attempt with
    | none => simp at found
    | some place =>
      obtain ⟨last, rfl⟩ : index - (deeds.map (·.entry machine)).length = 0 ∧
          machine.entry place.1 place.2 reached = entry := by
        simpa [List.getElem?_singleton] using found
      have count : index = deeds.length := by
        rw [List.length_map] at last
        omega
      exact ⟨reached, count ▸ does.advances, entry_tells ends.fetch_attempt⟩

end Machine

namespace Program

variable {file text : String} {mnemonics : Mnemonics} {machine : Machine}
  {room : Nat} {layout : List (Int × Json)} {inbox : List Json} {start : State}

/-- A run that nobody watches comes to the verdict on what it carries out and leaves the log of
it. -/
theorem exists_unwatched_run
    (parsed : Program.parse file text mnemonics = .ok machine.program)
    (started : State.ofJson room machine.config layout inbox = .ok start) :
    ∃ deeds reached attempt error last,
      start.Does machine.config machine.program deeds reached ∧
      machine.Ends deeds reached attempt error ∧
      (machine.session .empty start).execute machine = (last, .ok ⟨deeds.length, error⟩) ∧
      last.log =
        (machine.entries deeds reached attempt).foldl Log.record (.empty machine.capacity) := by
  obtain ⟨deeds, reached, attempt, error, last, does, ends, executed, logged, _⟩ :=
    exists_noted_run parsed started (List.forall_mem_nil fun request : Request => request.plan = [])
  exact ⟨deeds, reached, attempt, error, last, does, ends, executed, logged⟩

/-- A program that a text gives, run with nobody watching. There is an entry for each instruction
that it carries out and for one attempted in vain, about the state in which the instruction is to
come. The log holds the newest of them in their order, and gives out the last of those. -/
theorem execute_logged
    (parsed : Program.parse file text mnemonics = .ok machine.program)
    (started : State.ofJson room machine.config layout inbox = .ok start) :
    ∃ deeds reached attempt last verdict entries,
      start.Does machine.config machine.program deeds reached ∧
      machine.Ends deeds reached attempt verdict.error ∧ verdict.steps = deeds.length ∧
      (machine.session .empty start).execute machine = (last, .ok verdict) ∧
      entries.length = verdict.steps + (if attempt.isSome then 1 else 0) ∧
      (∀ (index : Nat) (entry : Entry), entries[index]? = some entry →
        ∃ state, start.advance machine.config machine.program index = .ok state ∧
          entry.step = index ∧ machine.Tells state entry) ∧
      Log.Newest machine.capacity entries last.log.entries ∧
      ∀ count : Int, Log.Newest (some count.toNat) last.log.entries (last.log.tail count) := by
  obtain ⟨_, fresh⟩ := State.ofJson_sound started machine.program
  obtain ⟨deeds, reached, attempt, error, last, does, ends, executed, logged⟩ :=
    exists_unwatched_run parsed started
  refine ⟨deeds, reached, attempt, last, ⟨deeds.length, error⟩,
    machine.entries deeds reached attempt, does, ends, rfl, executed, Machine.length_entries,
    fun index entry found => ?_, logged ▸ Log.newest_entries _ _,
    fun count => last.log.newest_tail count⟩
  obtain ⟨state, advanced, tells⟩ := Machine.entries_tell does ends found
  have counted := State.steps_advance advanced
  refine ⟨state, advanced, ?_, tells⟩
  rw [tells.step, counted, fresh, Nat.zero_add]

/-- The loop on one letter, with the floor shown: three instructions and one attempted in vain, of
which a log for two keeps the last. -/
theorem execute_logged_loop :
    Program.parse "<string>" "a:\nINBOX\nOUTBOX\nJUMP a" .standard = .ok .passOn ∧
      ∃ (machine : Machine) (start : State) (last : Session) (entries : List Entry),
        machine = ⟨.passOn, ⟨1, 999, 10, by decide, by decide⟩, true, some 2⟩ ∧
        State.ofJson 9 machine.config [(0, .int 3)] [.text [.scalar 'x']] = .ok start ∧
        (machine.session .empty start).execute machine = (last, .ok ⟨3, none⟩) ∧
        entries.length = 4 ∧ Log.Newest (some 2) entries last.log.entries ∧
        last.log.entries.map (fun entry => (entry.step, entry.rule)) = [(2, "JUMP"), (3, "INBOX")] ∧
        last.log.entries.map Entry.hands = [some "x", some "x"] ∧
        last.log.entries.map Entry.floor = [some [(0, "3")], some [(0, "3")]] ∧
        (last.log.tail 1).map Entry.step = [3] := by
  let machine : Machine := ⟨.passOn, ⟨1, 999, 10, by decide, by decide⟩, true, some 2⟩
  obtain ⟨deeds, reached, attempt, last, verdict, entries, does, ends, counted, executed, length, _,
      newest, _⟩ :=
    @execute_logged _ _ _ machine 9 [(0, .int 3)] [.text [.scalar 'x']] _ parse_passOn rfl
  have judged : verdict = ⟨3, none⟩ :=
    Option.some.inj ((congrArg (·.2.toOption) executed).symm.trans (by decide +kernel))
  subst judged
  have attempted : attempt.isSome = true := by
    cases ends with
    | left within gone =>
      have advanced := does.advances
      rw [← counted] at advanced
      cases advanced
      cases gone
    | dry => rfl
  refine ⟨parse_passOn, machine, _, last, entries, rfl, rfl, executed, ?_, newest, ?_, ?_, ?_, ?_⟩
  · rw [length, attempted]
    rfl
  all_goals
    rw [← congrArg (·.1.log) executed]
    decide +kernel

end Program

end MailRoom
