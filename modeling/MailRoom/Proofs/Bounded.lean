import MailRoom.Proofs.Judgement
import MailRoom.Proofs.Layout
import MailRoom.Proofs.WatchedSessions

/-! Numbers stay within the bound. Main statements: `State.Bounded.kept`, by which an instruction
takes bounded values to bounded values, and `Level.replay_bounded`, by which no number in a replay
of a level is ever outside the level's bound. -/
namespace MailRoom

/-- Every number in hands, on the floor, in the inbox and in the outbox is within the bound. -/
structure State.Bounded (bound : Int) (state : State) : Prop where
  hands : ∀ value, state.hands = some value → value.isWithin bound
  floor : ∀ value, some value ∈ state.floor.tiles → value.isWithin bound
  inbox : ∀ value ∈ state.inbox, value.isWithin bound
  outbox : ∀ value ∈ state.outbox, value.isWithin bound

namespace Spec

variable {config : Config} {instruction : Instruction} {state : State} {bound : Int}

theorem bounded_operand (bounded : state.Bounded bound) {value : Value}
    (there : operand? instruction state = some value) : value.isWithin bound := by
  obtain ⟨tile, _, lies⟩ := Option.bind_eq_some_iff.mp there
  exact bounded.floor value (mem_tiles.mpr ⟨tile, lies⟩)

theorem bounded_computed (met : Met config instruction state)
    (checked : .bound ∈ demands instruction.opcode) {value : Value}
    (computed : computed? instruction state = some value) :
    value.isWithin config.numberBound := by
  have within := met .bound checked
  obtain ⟨number, found, rfl⟩ := Option.map_eq_some_iff.mp computed
  obtain ⟨result, exact, fits⟩ := Option.bind_eq_some_iff.mp found
  have inside : -(config.numberBound : Int) ≤ result ∧ result ≤ config.numberBound := by
    simpa [lacks, exact] using within
  unfold Number.ofInt? at fits
  split at fits
  · cases fits
    simpa [Value.isWithin] using inside
  · cases fits

theorem bounded_handsAfter (met : Met config instruction state)
    (bounded : state.Bounded config.numberBound) {value : Value}
    (held : handsAfter instruction state = some value) : value.isWithin config.numberBound := by
  cases opcode : instruction.opcode with
  | inbox =>
    simp only [handsAfter, opcode] at held
    exact bounded.inbox value (List.mem_of_getElem? held)
  | copyFrom =>
    simp only [handsAfter, opcode] at held
    exact bounded_operand bounded held
  | add | sub | bumpUp | bumpDown =>
    simp only [handsAfter, opcode] at held
    exact bounded_computed met (by simp [demands, opcode]) held
  | _ =>
    simp only [handsAfter, opcode] at held
    exact bounded.hands value held

theorem mem_laid {floor : Floor} {tile : Option Int} {laidOut : Option Value} {value : Value}
    (member : some value ∈ (laid floor tile laidOut).tiles) :
    some value ∈ floor.tiles ∨ laidOut = some value := by
  unfold laid at member
  split at member
  · rcases Array.mem_or_eq_of_mem_setIfInBounds member with before | same
    · exact .inl before
    · exact .inr same.symm
  · exact .inl member

theorem bounded_floorAfter (met : Met config instruction state)
    (bounded : state.Bounded config.numberBound) {value : Value}
    (lies : some value ∈ (floorAfter instruction state).tiles) :
    value.isWithin config.numberBound := by
  cases opcode : instruction.opcode with
  | copyTo =>
    simp only [floorAfter, opcode] at lies
    rcases mem_laid lies with before | held
    · exact bounded.floor value before
    · exact bounded.hands value held
  | bumpUp | bumpDown =>
    simp only [floorAfter, opcode] at lies
    rcases mem_laid lies with before | computed
    · exact bounded.floor value before
    · exact bounded_computed met (by simp [demands, opcode]) computed
  | _ =>
    simp only [floorAfter, opcode] at lies
    exact bounded.floor value lies

end Spec

namespace State

variable {config : Config} {program : Program} {state next : State}

/-- An instruction takes bounded values to bounded values. -/
theorem Bounded.kept (bounded : state.Bounded config.numberBound) (formed : program.Formed)
    (moved : state.next config program = .ok next) : next.Bounded config.numberBound := by
  obtain ⟨pc, instruction, _, _, happens⟩ := next_meets formed moved
  obtain ⟨met, _, rfl⟩ := Spec.outcome_eq_next.mp happens
  refine ⟨fun _ => Spec.bounded_handsAfter met bounded,
    fun _ => Spec.bounded_floorAfter met bounded, bounded.inbox, ?_⟩
  intro value member
  simp only [Spec.after] at member
  split at member
  · rcases List.mem_append.mp member with before | new
    · exact bounded.outbox value before
    · exact bounded.hands value (Option.mem_toList.mp new)
  · exact bounded.outbox value member

end State

namespace Session

variable {machine : Machine} {first last : Session} {passed : List Session} {reason : Stop}

/-- A run from bounded values is bounded all along, whoever watches and however it ends. -/
theorem Run.bounded (course : Run machine first passed last reason)
    (formed : machine.program.Formed)
    (bounded : first.state.Bounded machine.config.numberBound) :
    ∀ visited ∈ passed ++ [last], visited.state.Bounded machine.config.numberBound := by
  obtain ⟨atEnd, before⟩ := course.keeps
    (fun session => session.state.Bounded machine.config.numberBound) bounded
    fun session good => by
      rcases step_state machine session with same | moved
      · exact same ▸ good
      · exact good.kept formed moved
  intro visited member
  rcases List.mem_append.mp member with earlier | latest
  · exact before visited earlier
  · exact List.mem_singleton.mp latest ▸ atEnd

end Session

namespace Level

theorem start_bounded {level : Level} {room : Nat} {config : Config} {start : State}
    (started : State.start room config level.floor.entries level.inbox = .ok start) :
    start.Bounded level.numberBound := by
  obtain ⟨floor, laid, rfl⟩ := map_eq_ok.mp started
  refine ⟨fun value held => ?_, fun value lies => ?_, fun value member => ?_,
    fun value member => ?_⟩
  · cases held
  · obtain ⟨tile, there⟩ := Spec.mem_tiles.mp lies
    have member := Floor.mem_of_lying_layOut laid there
    exact level.values_within value
      (List.mem_append_right _ (List.mem_map.mpr ⟨_, member, rfl⟩))
  · exact level.values_within value
      (List.mem_append_left _ (List.mem_append_left _ member))
  · cases member

/-- Whatever program that a text gives is replayed on a level for whose floor there is room, under
the level's own limit or another positive one, and whoever watches: no number is ever outside the
level's bound, not in hands, not on the floor, not in the inbox and not in the outbox, in no state
of the run and not in the one in which the replay ends. -/
theorem replay_bounded {draft : Draft} {level : Level} (built : ofDraft draft = .ok level)
    {file text : String} {mnemonics : Mnemonics} {program : Program}
    (parsed : Program.parse file text mnemonics = .ok program) {limit : Option Int}
    (positive : ∀ steps ∈ limit, 0 < steps) (verbose : Bool) (room : Nat) :
    ∃ machine,
      level.machine program verbose limit = .ok machine ∧
      (Floor.Fits room draft.floorSize → ∃ start,
        State.start room machine.config level.floor.entries level.inbox = .ok start) ∧
      ∀ start, State.start room machine.config level.floor.entries level.inbox = .ok start →
        ∀ audience, ∃ passed last reason,
          Session.Run machine (machine.session audience start).opened passed last reason ∧
          (∀ visited ∈ passed ++ [last], visited.state.Bounded draft.numberBound) ∧
          ((machine.session audience start).execute machine).1.state.Bounded draft.numberBound ∧
          ∀ report, (level.replay room machine audience).2 = .ok report →
            ∀ value ∈ report.outbox, value.isWithin draft.numberBound := by
  obtain rfl := toDraft_of_ofDraft built
  obtain ⟨config, accepted⟩ := level.exists_config positive
  obtain ⟨size, bound, _⟩ := Config.ofInts_eq_ok.mp accepted
  let machine : Machine := ⟨program, config, verbose, some Log.standardCapacity⟩
  refine ⟨machine, map_eq_ok.mpr ⟨config, accepted, rfl⟩, fun fits => ?_,
    fun start started audience => ?_⟩
  · obtain ⟨floor, started⟩ := level.exists_start size fits
    exact ⟨_, started⟩
  have within : start.Bounded config.numberBound := by
    rw [bound]
    exact start_bounded started
  obtain ⟨passed, course⟩ := Session.exists_run machine (machine.session audience start).opened
  have along := course.bounded (Program.parse_formed parsed) within
  have ends : ((machine.session audience start).execute machine).1.state.Bounded
      config.numberBound := by
    rcases Session.execute_state course with atEnd | unopened
    · exact atEnd ▸ along _ (by simp)
    · exact unopened ▸ within
  rw [← bound]
  refine ⟨passed, _, _, course, along, ends, ?_⟩
  intro report replayed
  simp only [replay, started] at replayed
  obtain ⟨verdict, _, rfl⟩ := map_eq_ok.mp (mapError_eq_ok.mp replayed)
  exact ends.outbox

private def narrow : Draft where
  name := .ofString "Narrow"
  description := .ofString "Count down"
  inbox := []
  expected := []
  floor := ⟨[(0, .number (.ofInt16 1))], by simp⟩
  floorSize := 1
  numberBound := 2
  stepLimit := 10000

private def countDown : Program where
  instructions := [⟨.bumpDown, some ⟨0, false⟩, none, none, some ⟨"<string>", 2, 1, "BUMPDN 0"⟩⟩,
    ⟨.outbox, none, none, none, some ⟨"<string>", 3, 1, "OUTBOX"⟩⟩,
    ⟨.jump, none, some "down", some 0, some ⟨"<string>", 4, 1, "JUMP down"⟩⟩]
  labels := ⟨[("down", 0)], by simp⟩
  markers := [⟨0, .label, "down"⟩]
  definitions := []
  location := some ⟨"<string>", 4, 10, "JUMP down"⟩

/-- Counting down ends at the bound, with the bound in the outbox and nothing beyond it. -/
theorem replay_bounded_countDown :
    ∃ level machine start report,
      ofDraft narrow = .ok level ∧
      Program.parse "<string>" "down:\nBUMPDN 0\nOUTBOX\nJUMP down" .standard = .ok countDown ∧
      level.machine countDown false (some 50) = .ok machine ∧
      State.start 1 machine.config level.floor.entries level.inbox = .ok start ∧
      ((machine.session .empty start).execute machine).1.state.Bounded 2 ∧
      (level.replay 1 machine .empty).2 = .ok report ∧
      report.outbox = Catalog.numbers [0, -1, -2] ∧
      report.error.map Incident.fault = some (.overflow .bumpDown (-3) 2) ∧
      ∀ value ∈ report.outbox, value.isWithin 2 := by
  have parsed : Program.parse "<string>" "down:\nBUMPDN 0\nOUTBOX\nJUMP down" .standard =
      .ok countDown := toOption_eq_some.mp (by decide +kernel)
  have positive : ∀ steps ∈ some (50 : Int), 0 < steps := by simp
  let level : Level := { narrow with
    size_natural := by decide
    limit_positive := by decide
    bound_fits := by decide
    tiles_inside := by decide
    values_within := by decide }
  have built : ofDraft narrow = .ok level := rfl
  obtain ⟨machine, machine_ok, starts, bounded⟩ := replay_bounded built parsed positive false 1
  cases machine_ok
  obtain ⟨start, started⟩ := starts ⟨by decide, by decide⟩
  obtain ⟨_, _, _, _, _, ends, reports⟩ := bounded start started .empty
  cases started
  let machine : Machine :=
    ⟨countDown, ⟨1, 2, 50, by decide, by decide⟩, false, some Log.standardCapacity⟩
  have replayed : (level.replay 1 machine .empty).2.toOption.map
      (fun report => (report.outbox, report.error.map Incident.fault)) =
        some (Catalog.numbers [0, -1, -2], some (.overflow .bumpDown (-3) 2)) := by
    decide +kernel
  obtain ⟨report, told, shown⟩ := Option.map_eq_some_iff.mp replayed
  have report_ok : (level.replay 1 machine .empty).2 = .ok report := toOption_eq_some.mp told
  obtain ⟨outbox, failed⟩ := Prod.mk.inj shown
  exact ⟨level, machine, _, report, built, parsed, rfl, rfl, ends, report_ok, outbox, failed,
    reports report report_ok⟩

end Level

end MailRoom
