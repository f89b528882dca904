import MailRoom.Proofs.Recorders
import Mathlib.Data.Nat.Init

/-! The calls of a run, told to observers that only take note. Main statement:
`Program.execute_protocol`, by which a run makes the calls of its protocol and no others, so that
those behind an instruction are as many as its steps, and those for a period as many as its steps
hold periods. -/
namespace MailRoom

def Call.answers (topic : Topic) (name : String) (call : Call) : Bool :=
  call.topic = topic ∧ call.name = name

def Request.asks (topic : Topic) (name : String) (request : Request) : Bool :=
  request.topic = topic ∧ request.name = name

section Counting

variable {topic : Topic} {name : String}

theorem count_call (requests : List Request) (occasion : Occasion) :
    (requests.map (·.call occasion)).countP (Call.answers topic name) =
      requests.countP (Request.asks topic name) :=
  List.countP_map

variable {requests : List Request}

theorem count_told (event : Event) (occasion : Occasion) :
    ((Request.roster requests).told event occasion).countP (Call.answers topic name) =
      if topic = .event event.name then requests.countP (Request.asks topic name) else 0 := by
  rw [Roster.told, count_call, Request.roster, Request.listeners,
    (List.perm_insertionSort _ _).countP_eq, List.countP_filter]
  split
  · rename_i asked
    refine List.countP_congr fun request _ => ?_
    simp only [Request.asks, asked, Bool.and_eq_true, decide_eq_true_eq]
    exact and_iff_left_of_imp And.left
  · rename_i other
    refine List.countP_eq_zero.mpr fun request _ => ?_
    simp only [Request.asks, Bool.and_eq_true, decide_eq_true_eq]
    rintro ⟨⟨rfl, _⟩, same⟩
    exact other same

/-- A step is told to those for whose period it is due, each of them once. -/
theorem count_ticked {period step : Nat} (positive : 0 < period) (occasion : Occasion) :
    ((Request.roster requests).ticked step occasion).countP (Call.answers (.every period) name) =
      if period ∣ step then requests.countP (Request.asks (.every period) name) else 0 := by
  rw [Roster.ticked, count_call, Request.roster, List.filter_filter, List.countP_filter]
  split
  · rename_i due
    refine List.countP_congr fun request _ => ?_
    simp only [Request.asks, Bool.and_eq_true, decide_eq_true_eq, and_iff_left_iff_imp]
    rintro ⟨asked, _⟩
    simp [Topic.strikes, Request.isRule, asked, Int.natCast_dvd_natCast, due, positive]
  · rename_i early
    refine List.countP_eq_zero.mpr fun request _ => ?_
    simp only [Request.asks, Bool.and_eq_true, decide_eq_true_eq]
    rintro ⟨⟨asked, _⟩, due, _⟩
    simp [Topic.strikes, asked, Int.natCast_dvd_natCast, early] at due

theorem count_unticked {event : String} (step : Nat) (occasion : Occasion) :
    ((Request.roster requests).ticked step occasion).countP
      (Call.answers (.event event) name) = 0 := by
  rw [Roster.ticked, count_call, Request.roster, List.filter_filter, List.countP_filter]
  refine List.countP_eq_zero.mpr fun request _ => ?_
  simp only [Request.asks, Bool.and_eq_true, decide_eq_true_eq]
  rintro ⟨⟨asked, _⟩, due, _⟩
  simp [Topic.strikes, asked] at due

variable {deeds : List Deed} {start reached : State} {attempt : Option (Int × Instruction)}
  {error : Option Incident}

/-- All calls for anything but the other events come behind an instruction that is carried out. -/
theorem count_protocol
    (other : ∀ event : Event, topic = .event event.name → event = .afterInstruction) :
    ((Request.roster requests).protocol start deeds reached attempt error).countP
        (Call.answers topic name) =
      ((deeds.zipIdx 1).flatMap fun (deed, step) => (Request.roster requests).acknowledged deed.pc
        deed.instruction deed.after step).countP (Call.answers topic name) := by
  have silent (event : Event) (apart : event ≠ .afterInstruction) (occasion : Occasion) :
      ((Request.roster requests).told event occasion).countP (Call.answers topic name) = 0 := by
    rw [count_told, if_neg fun same => apart (other event same)]
  simp only [Roster.protocol, Roster.throughout, Roster.around, Roster.announced,
    List.countP_append, List.countP_flatMap]
  cases attempt <;> cases error <;> simp [silent, Function.comp_def]

theorem count_after : ((Request.roster requests).protocol start deeds reached attempt error).countP
    (Call.answers (.event "after_instruction") name) =
      deeds.length * requests.countP (Request.asks (.event "after_instruction") name) := by
  rw [count_protocol fun event same => by cases event <;> simp_all [Event.name]]
  induction deeds using List.reverseRecOn with
  | nil => simp
  | append_singleton earlier deed ih =>
    rw [List.zipIdx_append, List.flatMap_append, List.countP_append, ih, List.length_append,
      List.length_singleton, Nat.succ_mul]
    simp [Roster.acknowledged, count_told, count_unticked, Event.name]

/-- In a whole run a period is over as often as it divides the number of a step. -/
theorem count_every {period : Nat} (positive : 0 < period) :
    ((Request.roster requests).protocol start deeds reached attempt error).countP
      (Call.answers (.every period) name) =
        deeds.length / period * requests.countP (Request.asks (.every period) name) := by
  rw [count_protocol fun event same => by cases same]
  induction deeds using List.reverseRecOn with
  | nil => simp
  | append_singleton earlier deed ih =>
    rw [List.zipIdx_append, List.flatMap_append, List.countP_append, ih, List.length_append,
      List.length_singleton, Nat.succ_div, Nat.add_mul]
    simp [Roster.acknowledged, count_told, count_ticked positive, Nat.add_comm 1]

end Counting

/-- A program that a text gives, run before observers that only take note, whatever they asked for.
It carries out so many instructions and comes to its end, and its calls are those of its protocol.
Those behind an instruction are as many as the steps of the verdict, and those for a period as many
as the steps hold it. -/
theorem Program.execute_protocol {file text : String} {mnemonics : Mnemonics} {machine : Machine}
    (parsed : Program.parse file text mnemonics = .ok machine.program)
    {room : Nat} {layout : List (Int × Json)} {inbox : List Json} {start : State}
    (started : State.ofJson room machine.config layout inbox = .ok start) {requests : List Request}
    (recording : ∀ request ∈ requests, request.plan = []) :
    ∃ deeds reached attempt last verdict,
      start.Does machine.config machine.program deeds reached ∧
      machine.Ends deeds reached attempt verdict.error ∧ verdict.steps = deeds.length ∧
      (machine.session ⟨.ofRequests requests, []⟩ start).execute machine = (last, .ok verdict) ∧
      last.audience.calls.reverse =
        (Request.roster requests).protocol start deeds reached attempt verdict.error ∧
      (∀ name, last.audience.calls.countP (Call.answers (.event "after_instruction") name) =
        verdict.steps * requests.countP (Request.asks (.event "after_instruction") name)) ∧
      ∀ period name, 0 < period →
        last.audience.calls.countP (Call.answers (.every (period : Nat)) name) =
          verdict.steps / period * requests.countP (Request.asks (.every (period : Nat)) name) := by
  obtain ⟨deeds, reached, attempt, error, last, does, ends, executed, _, calls⟩ :=
    exists_noted_run parsed started recording
  refine ⟨deeds, reached, attempt, last, ⟨deeds.length, error⟩, does, ends, rfl, executed, calls,
    fun name => ?_, fun period name positive => ?_⟩
  · rw [← List.countP_reverse, calls, count_after]
  · rw [← List.countP_reverse, calls, count_every positive]

/-- The loop on one letter under a limit of two. The third step is one too many, and the one for
which a period of three is due. -/
theorem Program.execute_protocol_loop :
    Program.parse "<string>" "a:\nINBOX\nOUTBOX\nJUMP a" .standard = .ok .passOn ∧
      ∃ (machine : Machine) (requests : List Request) (start : State) (last : Session)
          (verdict : Verdict),
        machine.program = .passOn ∧
        State.ofJson 9 machine.config [] [.text [.scalar 'x']] = .ok start ∧
        requests = [⟨.every 3, "third", 0, []⟩, ⟨.event "never", "lost", 0, []⟩,
          ⟨.event "after_instruction", "late", 0, []⟩,
          ⟨.event "after_instruction", "early", 1, []⟩] ∧
        (machine.session ⟨.ofRequests requests, []⟩ start).execute machine = (last, .ok verdict) ∧
        verdict.steps = 3 ∧ verdict.status = .runtimeError ∧
        last.audience.calls.countP (Call.answers (.event "after_instruction") "early") = 3 ∧
        last.audience.calls.countP (Call.answers (.every 3) "third") = 1 ∧
        (last.audience.calls.reverse.take 3).map Call.name = ["early", "late", "early"] := by
  let machine : Machine := ⟨.passOn, ⟨0, 999, 2, by decide, by decide⟩, false, none⟩
  let requests : List Request := [⟨.every 3, "third", 0, []⟩, ⟨.event "never", "lost", 0, []⟩,
    ⟨.event "after_instruction", "late", 0, []⟩, ⟨.event "after_instruction", "early", 1, []⟩]
  have started : State.ofJson 9 machine.config [] [.text [.scalar 'x']] =
      .ok (.initial ⟨#[]⟩ [.letter 'x']) := rfl
  obtain ⟨deeds, reached, attempt, last, verdict, _, _, _, executed, _, acknowledged, ticked⟩ :=
    @execute_protocol _ _ _ machine parse_passOn _ _ _ _ started requests (by simp [requests])
  have short : verdict.steps = 3 ∧ verdict.status = .runtimeError := by
    have judged : (((machine.session ⟨.ofRequests requests, []⟩
        (.initial ⟨#[]⟩ [.letter 'x'])).execute machine).2.toOption.map
          fun verdict => (verdict.steps, verdict.status)) = some (3, .runtimeError) := by
      decide +kernel
    simpa [executed, Except.toOption] using judged
  have first : (last.audience.calls.reverse.take 3).map Call.name = ["early", "late", "early"] := by
    rw [← congrArg (·.1.audience.calls) executed]
    decide +kernel
  refine ⟨parse_passOn, machine, requests, _, last, verdict, rfl, started, rfl, executed, short.1,
    short.2, ?_, ?_, first⟩
  · rw [acknowledged, short.1]
    rfl
  · exact (ticked 3 "third" (by decide)).trans (by rw [short.1]; rfl)

end MailRoom
