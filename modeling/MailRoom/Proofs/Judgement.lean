import MailRoom.Command.Run
import MailRoom.Proofs.Limit

/-! Replays and how they are judged. Main statements: `firstMismatch_eq_none` and
`firstMismatch_eq_some`, by which rows are compared up to the end of what they share, and
`Level.replay_judges`, by which every level can be replayed and the report says how the run and the
expected row compare. -/
namespace MailRoom

/-- The longest row that two rows both begin with. -/
structure LongestShared (shared produced expected : List Value) : Prop where
  begins : shared <+: produced
  begins' : shared <+: expected
  longest : ∀ other, other <+: produced → other <+: expected → other.length ≤ shared.length

namespace LongestShared

variable {shared produced expected : List Value}

theorem cons (value : Value) (longest : LongestShared shared produced expected) :
    LongestShared (value :: shared) (value :: produced) (value :: expected) where
  begins := (List.prefix_cons_inj value).mpr longest.begins
  begins' := (List.prefix_cons_inj value).mpr longest.begins'
  longest := by
    intro other before before'
    cases other with
    | nil => exact Nat.zero_le _
    | cons head rest =>
      have shorter := longest.longest rest (List.cons_prefix_cons.mp before).2
        (List.cons_prefix_cons.mp before').2
      exact Nat.succ_le_succ shorter

theorem nil (apart : ∀ value rest, value :: rest <+: produced → ¬value :: rest <+: expected) :
    LongestShared [] produced expected where
  begins := List.nil_prefix
  begins' := List.nil_prefix
  longest := by
    intro other before before'
    cases other with
    | nil => exact Nat.le_refl _
    | cons head rest => exact absurd before' (apart head rest before)

/-- Where one row begins with the other, they share the shorter of the two. -/
theorem length_of_prefix (longest : LongestShared shared produced expected)
    (ahead : produced <+: expected ∨ expected <+: produced) :
    shared.length = min produced.length expected.length := by
  have below := longest.begins.length_le
  have below' := longest.begins'.length_le
  rcases ahead with whole | whole
  · have above := longest.longest produced (List.prefix_refl produced) whole
    omega
  · have above := longest.longest expected whole (List.prefix_refl expected)
    omega

end LongestShared

theorem firstMismatch_eq_none {produced expected : List Value} :
    firstMismatch produced expected = none ↔ produced = expected := by
  induction produced generalizing expected with
  | nil => cases expected <;> simp [firstMismatch]
  | cons value rest ih =>
    cases expected with
    | nil => simp [firstMismatch]
    | cons other others =>
      by_cases same : value = other
      · simp [firstMismatch, same, ih]
      · simp [firstMismatch, same]

@[simp] theorem firstMismatch_self (row : List Value) : firstMismatch row row = none :=
  firstMismatch_eq_none.mpr rfl

theorem firstMismatch_eq_some {produced expected : List Value} {index : Nat}
    (differ : firstMismatch produced expected = some index) :
    ∃ shared, LongestShared shared produced expected ∧ shared.length = index := by
  induction produced generalizing expected index with
  | nil =>
    cases expected with
    | nil => cases differ
    | cons other others =>
      cases differ
      exact ⟨[], .nil fun _ _ before _ => by simp at before, rfl⟩
  | cons value rest ih =>
    cases expected with
    | nil =>
      cases differ
      exact ⟨[], .nil fun _ _ _ before' => by simp at before', rfl⟩
    | cons other others =>
      by_cases same : value = other
      · subst other
        simp only [firstMismatch, if_true] at differ
        obtain ⟨before, found, rfl⟩ := Option.map_eq_some_iff.mp differ
        obtain ⟨shared, longest, rfl⟩ := ih found
        exact ⟨value :: shared, longest.cons value, rfl⟩
      · simp only [firstMismatch, if_neg same, Option.some.injEq] at differ
        subst index
        refine ⟨[], .nil fun head tail before before' => ?_, rfl⟩
        exact same ((List.cons_prefix_cons.mp before).1.symm.trans
          (List.cons_prefix_cons.mp before').1)

theorem Config.ofInts_eq_ok {floorSize numberBound stepLimit : Int} {config : Config} :
    Config.ofInts floorSize numberBound stepLimit = .ok config ↔
      (config.floorSize : Int) = floorSize ∧ (config.numberBound : Int) = numberBound ∧
        (config.stepLimit : Int) = stepLimit := by
  obtain ⟨size, bound, limit, fits, positive⟩ := config
  unfold ofInts
  by_cases negative : floorSize < 0
  · simp only [if_pos negative, reduceCtorEq, false_iff]
    omega
  · simp only [if_neg negative]
    by_cases inside : 0 ≤ numberBound ∧ numberBound ≤ Number.max
    · by_cases enough : 0 < stepLimit
      · simp only [dif_pos inside, dif_pos enough, Except.ok.injEq, Config.mk.injEq]
        omega
      · simp only [dif_pos inside, dif_neg enough, reduceCtorEq, false_iff]
        omega
    · simp only [dif_neg inside, reduceCtorEq, false_iff]
      simp only [Number.max] at inside
      omega

theorem Config.exists_ofInts {floorSize numberBound stepLimit : Int} (natural : 0 ≤ floorSize)
    (fits : 0 ≤ numberBound ∧ numberBound ≤ Number.max) (positive : 0 < stepLimit) :
    ∃ config, ofInts floorSize numberBound stepLimit = .ok config := by
  simp [ofInts, Int.not_lt.mpr natural, fits, positive]

namespace Floor

theorem write_inside {floor : Floor} {tile : Int} (value : Value)
    (inside : 0 ≤ tile ∧ tile < floor.size) :
    ∃ written, floor.write tile value = .ok written ∧ written.size = floor.size := by
  refine ⟨floor.set ⟨tile.toNat, by omega⟩ value, ?_, floor.size_set _ value⟩
  simp [write, place, inside, Except.map]

theorem writeAll_inside {layout : List (Int × Value)} {floor : Floor}
    (inside : ∀ entry ∈ layout, 0 ≤ entry.1 ∧ entry.1 < floor.size) :
    ∃ laid, floor.writeAll layout = .ok laid := by
  induction layout generalizing floor with
  | nil => exact ⟨floor, rfl⟩
  | cons entry rest ih =>
    obtain ⟨written, success, same⟩ := write_inside entry.2 (inside entry (by simp))
    have further : ∀ entry ∈ rest, 0 ≤ entry.1 ∧ entry.1 < written.size := by
      intro entry member
      rw [same]
      exact inside entry (by simp [member])
    obtain ⟨laid, whole⟩ := ih further
    exact ⟨laid, bind_eq_ok.mpr ⟨written, success, whole⟩⟩

section Room

variable {room : Nat} {size : Int} {layout : List (Int × Value)}

/-- A layout whose tiles are all on the floor can be laid out, if there is room for the floor. -/
theorem layOut_inside (natural : 0 ≤ size) (fits : Fits room size)
    (inside : ∀ entry ∈ layout, 0 ≤ entry.1 ∧ entry.1 < size) :
    ∃ floor, layOut room size layout = .ok floor := by
  have made := ofSize_eq_ok.mpr ⟨natural, fits, rfl⟩
  obtain ⟨floor, wrote⟩ := @writeAll_inside layout ⟨Array.replicate size.toNat none⟩ <| by
    simpa [Floor.size, Int.max_eq_left natural] using inside
  exact ⟨floor, layOut_eq_ok.mpr ⟨_, made, wrote⟩⟩

theorem layOut_no_room (tight : ¬Fits room size) :
    ∃ error, layOut room size layout = .error (.size error) := by
  cases made : ofSize room size with
  | error error => exact ⟨error, bind_eq_error.mpr (.inl (mapError_eq_error.mpr ⟨_, made, rfl⟩))⟩
  | ok floor => exact absurd (ofSize_eq_ok.mp made).2.1 tight

end Room

end Floor

namespace Level

theorem toDraft_of_ofDraft {draft : Draft} {level : Level} (built : ofDraft draft = .ok level) :
    level.toDraft = draft := by
  unfold ofDraft at built
  split at built
  · cases built
  split at built
  · cases built
  split at built
  · split at built
    · cases built
    · split at built
      · cases built
      · cases built
        rfl
  · cases built

/-- Limits that have been checked for a level pass the machine's own check, also with another
positive number of steps. -/
theorem exists_config (level : Level) {limit : Option Int} (positive : ∀ steps ∈ limit, 0 < steps) :
    ∃ config, level.config limit = .ok config := by
  refine Config.exists_ofInts level.size_natural level.bound_fits ?_
  cases limit with
  | none => exact level.limit_positive
  | some steps => exact positive steps rfl

section Start

variable (level : Level) {room : Nat} {config : Config}
  (same : (config.floorSize : Int) = level.floorSize)
include same

theorem exists_start (fits : Floor.Fits room level.floorSize) :
    ∃ floor, State.start room config level.floor.entries level.inbox =
      .ok (.initial floor level.inbox) := by
  have inside : ∀ entry ∈ level.floor.entries, 0 ≤ entry.1 ∧ entry.1 < level.floorSize :=
    fun entry member => level.tiles_inside entry.1 (List.mem_map_of_mem member)
  obtain ⟨floor, laid⟩ := Floor.layOut_inside level.size_natural fits inside
  exact ⟨floor, map_eq_ok.mpr ⟨floor, by rw [same, laid], rfl⟩⟩

theorem start_no_room (tight : ¬Floor.Fits room level.floorSize) : ∃ error,
    State.start room config level.floor.entries level.inbox = .error (.size error) := by
  obtain ⟨error, refused⟩ :=
    @Floor.layOut_no_room room _ level.floor.entries tight
  refine ⟨error, ?_⟩
  rw [State.start, same, refused]
  rfl

end Start

end Level

namespace Report

/-- What a report says of a verdict, of the row that was produced and of the expected one. -/
structure Judges (report : Report) (verdict : Verdict) (produced expected : List Value) : Prop where
  rows : report.outbox = produced ∧ report.expected = expected
  run : report.steps = verdict.steps ∧ report.error = verdict.error
  failed : report.outcome = .runtimeError ↔ verdict.error.isSome
  matched : report.outcome = .matched ↔ verdict.error = none ∧ produced = expected
  mismatched : report.outcome = .mismatched ↔ verdict.error = none ∧ produced ≠ expected
  /-- Only rows that differ have a place where they do. -/
  nowhere : report.outcome ≠ .mismatched → report.mismatch = none
  behind_shared : report.outcome = .mismatched →
    ∃ shared, LongestShared shared produced expected ∧ report.mismatch = some shared.length
  behind_shorter : report.outcome = .mismatched → produced <+: expected ∨ expected <+: produced →
    report.mismatch = some (min produced.length expected.length)

end Report

namespace Level

theorem judge_judges (level : Level) (session : Session) (verdict : Verdict) :
    (level.judge session verdict).Judges verdict session.state.outbox level.expected := by
  obtain ⟨steps, error⟩ := verdict
  cases error with
  | some incident =>
    constructor <;> simp [judge, Report.outcome]
  | none =>
    cases differ : firstMismatch session.state.outbox level.expected with
    | none =>
      have same := firstMismatch_eq_none.mp differ
      constructor <;> simp [judge, Report.outcome, same]
    | some index =>
      have apart : session.state.outbox ≠ level.expected := by
        intro same
        simp [firstMismatch_eq_none.mpr same] at differ
      obtain ⟨shared, longest, rfl⟩ := firstMismatch_eq_some differ
      constructor <;> simp [judge, Report.outcome, differ, apart]
      · exact ⟨shared, longest, rfl⟩
      · exact longest.length_of_prefix

/-- A replay without observers reports on the verdict of the one run it makes. -/
theorem replay_eq_ok {level : Level} {room : Nat} {machine : Machine} {start : State}
    {last : Session} {verdict : Verdict}
    (started : State.start room machine.config level.floor.entries level.inbox = .ok start)
    (executed : (machine.session .empty start).execute machine = (last, .ok verdict)) :
    (level.replay room machine .empty).2 = .ok (level.judge last verdict) := by
  simp only [replay, started, executed]
  rfl

theorem replay_eq_error {level : Level} {room : Nat} {machine : Machine} {error : LayoutError}
    (refused : State.start room machine.config level.floor.entries level.inbox = .error error) :
    (level.replay room machine .empty).2 = .error (.start error) := by
  simp only [replay, refused]

end Level

namespace Command

/-- All that the command line looks at before it plays is in order: the arguments name the level
and a text with the program, and ask for this limit and this way of logging. -/
structure Reaches (host : Host) (arguments : Arguments) (level : Level) (program : Program)
    (verbose : Bool) (limit : Option Int) : Prop where
  level : findLevel host arguments.level = .ok level
  program : ∃ text file, findProgram host.disk arguments = .ok (text, file) ∧
    parse text file = .ok program
  limit : findLimit arguments.limit = .ok limit
  verbose : arguments.verbose = verbose

variable {host : Host} {arguments : Arguments} {level : Level} {machine : Machine}
  {program : Program} {verbose : Bool} {limit : Option Int}

theorem Reaches.exit_code {played : Report}
    (reaches : Reaches host arguments level program verbose limit)
    (machine_ok : level.machine program verbose limit = .ok machine)
    (played_ok : (level.replay host.room machine .empty).2 = .ok played) :
    ∃ transcript, run host arguments = .ok transcript ∧
      transcript.exit = if played.outcome = .matched then 0 else 1 := by
  obtain ⟨found, ⟨text, file, written, parsed⟩, limited, rfl⟩ := reaches
  have plays : ∃ transcript, play host arguments = .ok transcript ∧
      transcript.exit = if played.outcome = .matched then 0 else 1 := by
    simp only [play, found, written, parsed, limited, machine_ok, played_ok, mapError_ok, bind,
      Except.bind]
    exact ⟨_, rfl, by simp [Report.passed]⟩
  obtain ⟨transcript, plays, exit⟩ := plays
  exact ⟨transcript, by simp [run, plays], exit⟩

theorem Reaches.play_eq_error {error : Level.ReplayError}
    (reaches : Reaches host arguments level program verbose limit)
    (machine_ok : level.machine program verbose limit = .ok machine)
    (failed : (level.replay host.room machine .empty).2 = .error error) :
    play host arguments = .error (.escaped (.replay error)) := by
  obtain ⟨found, ⟨text, file, written, parsed⟩, limited, rfl⟩ := reaches
  simp only [play, found, written, parsed, limited, machine_ok, failed, mapError_ok,
    mapError_error, bind, Except.bind]

end Command

/-- Every program that a text gives can be replayed on every level for whose floor there is room,
under the level's own limit or another positive one: the machine accepts the limits and the layout
that the level accepts, and the report says how the run ended and, if it completed, how the rows
compare. The command line ends with code zero exactly when they match. Without room for the floor,
of which a level does not make sure, neither comes to a report. -/
theorem Level.replay_judges {draft : Draft} {level : Level} (built : ofDraft draft = .ok level)
    {file text : String} {mnemonics : Mnemonics} {program : Program}
    (parsed : Program.parse file text mnemonics = .ok program) {limit : Option Int}
    (positive : ∀ steps ∈ limit, 0 < steps) (verbose : Bool) (room : Nat) :
    ∃ machine,
      level.machine program verbose limit = .ok machine ∧
      Config.ofInts draft.floorSize draft.numberBound (limit.getD draft.stepLimit) =
        .ok machine.config ∧
      (Floor.Fits room draft.floorSize → ∃ start last verdict report,
        State.start room machine.config draft.floor.entries draft.inbox = .ok start ∧
        (machine.session .empty start).execute machine = (last, .ok verdict) ∧
        (level.replay room machine .empty).2 = .ok report ∧
        report.Judges verdict last.state.outbox draft.expected ∧
        ∀ host arguments, host.room = room →
          Command.Reaches host arguments level program verbose limit →
          ∃ transcript, Command.run host arguments = .ok transcript ∧
            transcript.exit = if report.outcome = .matched then 0 else 1) ∧
      (¬Floor.Fits room draft.floorSize → ∃ error,
        (level.replay room machine .empty).2 = .error (.start (.size error)) ∧
        ∀ host arguments, host.room = room →
          Command.Reaches host arguments level program verbose limit →
          Command.run host arguments = .error (.replay (.start (.size error)))) := by
  obtain rfl := toDraft_of_ofDraft built
  obtain ⟨config, accepted⟩ := level.exists_config positive
  obtain ⟨size, _, _⟩ := Config.ofInts_eq_ok.mp accepted
  let machine : Machine := ⟨program, config, verbose, some Log.standardCapacity⟩
  have machine_ok : level.machine program verbose limit = .ok machine :=
    map_eq_ok.mpr ⟨config, accepted, rfl⟩
  refine ⟨machine, machine_ok, accepted, fun fits => ?_, fun tight => ?_⟩
  · obtain ⟨_, started⟩ := level.exists_start size fits
    -- A program that a text gives comes to a verdict from every state in order.
    obtain ⟨_, last, _, verdict, _, _, executed⟩ :=
      @Program.exists_judged_run file text mnemonics machine parsed _
        (State.initial_sound _ _ program)
    have report_ok := @replay_eq_ok _ _ machine _ _ _ started executed
    refine ⟨_, last, verdict, _, started, executed, report_ok, level.judge_judges last verdict, ?_⟩
    rintro host arguments rfl reaches
    exact reaches.exit_code machine_ok report_ok
  · obtain ⟨error, refused⟩ := level.start_no_room size tight
    have failed := @replay_eq_error _ _ machine _ refused
    refine ⟨error, failed, ?_⟩
    rintro host arguments rfl reaches
    simp [Command.run, reaches.play_eq_error machine_ok failed]

/-- The loop that passes values on, played on the first level and given just the nine instructions
it takes: its outbox matches, and the command line says so. -/
theorem Level.replay_judges_mailRoom :
    ∃ level machine report transcript,
      ofDraft Catalog.mailRoom = .ok level ∧
      Program.parse "<string>" "a:\nINBOX\nOUTBOX\nJUMP a" .standard = .ok .passOn ∧
      level.machine .passOn false (some 9) = .ok machine ∧
      (level.replay 0 machine .empty).2 = .ok report ∧ report.outcome = .matched ∧
      Command.run ⟨fun _ => .error .notFound, 0, 0⟩
        ⟨"1", some "a:\nINBOX\nOUTBOX\nJUMP a", true, false, false, .steps 9⟩ = .ok transcript ∧
      transcript.exit = 0 := by
  let level : Level := { Catalog.mailRoom with
    size_natural := by decide
    limit_positive := by decide
    bound_fits := by decide
    tiles_inside := by decide
    values_within := by decide }
  let machine : Machine :=
    ⟨.passOn, ⟨0, 999, 9, by decide, by decide⟩, false, some Log.standardCapacity⟩
  let start : State := .initial ⟨#[]⟩ level.inbox
  have built : ofDraft Catalog.mailRoom = .ok level := rfl
  have machine_ok : level.machine .passOn false (some 9) = .ok machine := rfl
  have started : State.start 0 machine.config [] level.inbox = .ok start := rfl
  have completed : ((machine.session .empty start).execute machine).2.toOption = some ⟨9, none⟩ := by
    decide +kernel
  have passed_on :
      ((machine.session .empty start).execute machine).1.state.outbox = level.expected := by
    decide +kernel
  have positive : ∀ steps ∈ some (9 : Int), 0 < steps := by simp
  obtain ⟨_, same, _, plays, _⟩ := replay_judges built Program.parse_passOn positive false 0
  obtain rfl := Except.ok.inj (machine_ok.symm.trans same)
  obtain ⟨_, last, verdict, report, same', executed, report_ok, judges, exit_code⟩ :=
    plays ⟨by decide, by decide⟩
  obtain rfl := Except.ok.inj (started.symm.trans same')
  rw [executed] at completed passed_on
  cases completed
  have matched : report.outcome = .matched := judges.matched.mpr ⟨rfl, passed_on⟩
  have reaches : Command.Reaches ⟨fun _ => .error .notFound, 0, 0⟩
      ⟨"1", some "a:\nINBOX\nOUTBOX\nJUMP a", true, false, false, .steps 9⟩ level .passOn false
      (some 9) :=
    ⟨rfl, ⟨_, _, rfl, mapError_eq_ok.mpr Program.parse_passOn⟩, rfl, rfl⟩
  obtain ⟨transcript, ran, exit⟩ := exit_code _ _ rfl reaches
  rw [if_pos matched] at exit
  exact ⟨level, machine, report, transcript, built, Program.parse_passOn, machine_ok, report_ok,
    matched, ran, exit⟩

/-- A level with more tiles than there are indices. It passes both checks, and no memory is large
enough to replay a program on it. -/
theorem Level.replay_beyond_index :
    ∃ (draft : Draft) (level : Level) (machine : Machine),
      draft.floorSize = 9223372036854775808 ∧ ofDraft draft = .ok level ∧
      Program.parse "<string>" "a:\nINBOX\nOUTBOX\nJUMP a" .standard = .ok .passOn ∧
      level.machine .passOn false none = .ok machine ∧
      ∀ room, (level.replay room machine .empty).2 = .error (.start (.size .beyondIndex)) := by
  let draft : Draft := { Catalog.mailRoom with floorSize := 9223372036854775808 }
  let level : Level := { draft with
    size_natural := by decide
    limit_positive := by decide
    bound_fits := by decide
    tiles_inside := by decide
    values_within := by decide }
  exact ⟨draft, level, ⟨.passOn, ⟨9223372036854775808, 999, 10000, by decide, by decide⟩, false,
    some Log.standardCapacity⟩, rfl, rfl, Program.parse_passOn, rfl, fun _ => rfl⟩

end MailRoom
